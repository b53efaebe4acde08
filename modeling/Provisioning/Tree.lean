import Provisioning.Keyed
import Provisioning.Number.Layout

/-!
# Trees

A tree is what a document says, whatever format it was written in: a null, a truth value, a number,
a text, a list of trees, or an object, which is a keyed list of trees.
-/

namespace Provisioning

/-- A number of a document: a whole number, or a finite binary64 number. -/
inductive Number where
  | whole (i : Int)
  | real (x : Binary64)
  deriving DecidableEq, Repr

def Number.text : Number → List Char
  | .whole i => wholeText i
  | .real x => x.text

inductive Tree where
  | null
  | bool (b : Bool)
  | num (n : Number)
  | str (s : String)
  | arr (items : List Tree)
  | obj (entries : List (String × Tree))
  deriving Inhabited

namespace Tree

/-- The object that holds the given entries, the last of several under one key. -/
def ofEntries (entries : List (String × Tree)) : Tree :=
  .obj (Keyed.gather entries)

mutual

/-- How deep a tree is nested: nothing for a plain value, one more than the deepest part otherwise. -/
def depth : Tree → Nat
  | .arr items => depthOfItems items + 1
  | .obj entries => depthOfEntries entries + 1
  | _ => 0

def depthOfItems : List Tree → Nat
  | [] => 0
  | t :: rest => max (depth t) (depthOfItems rest)

def depthOfEntries : List (String × Tree) → Nat
  | [] => 0
  | (_, t) :: rest => max (depth t) (depthOfEntries rest)

end

end Tree

end Provisioning
