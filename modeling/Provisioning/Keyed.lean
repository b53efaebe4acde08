/-!
# Keyed lists

A keyed list holds values under texts, in ascending order of the texts by code point, and no text
occurs twice.
-/

namespace Provisioning.Keyed

variable {α : Type}

/-- Puts a value under a key, in the key's place; a value that was there before is replaced. -/
def put (key : String) (value : α) : List (String × α) → List (String × α)
  | [] => [(key, value)]
  | (k, v) :: rest =>
    if key = k then (key, value) :: rest
    else if key < k then (key, value) :: (k, v) :: rest
    else (k, v) :: put key value rest

/-- The entries of any list with each key once, in order; the last of several values counts. -/
def gather (entries : List (String × α)) : List (String × α) :=
  entries.foldl (fun acc e => put e.1 e.2 acc) []

def lookup (key : String) : List (String × α) → Option α
  | [] => none
  | (k, v) :: rest => if k = key then some v else lookup key rest

def erase (key : String) (entries : List (String × α)) : List (String × α) :=
  entries.filter fun e => e.1 ≠ key

end Provisioning.Keyed
