import Provisioning.Tree

/-!
# Tables under construction

Headers and dotted keys add to a table piece by piece. What may still be added to a table hangs on
how it came about: a header defines it once and for all, a longer header only passes through it, and
a dotted key leaves it open to further dotted keys alone.
-/

namespace Provisioning.Toml

/-- How a table came about. -/
inductive Origin where
  | defined
  | passed
  | dotted
  deriving DecidableEq, Repr

inductive Item where
  | value (t : Tree)
  | table (origin : Origin) (entries : List (String × Item))
  | tables (elements : List (List (String × Item)))

namespace Item

mutual

def toTree : Item → Tree
  | .value t => t
  | .table _ entries => .obj (entriesToTrees entries)
  | .tables elements => .arr (elementsToTrees elements)

def entriesToTrees : List (String × Item) → List (String × Tree)
  | [] => []
  | (k, i) :: rest => (k, toTree i) :: entriesToTrees rest

def elementsToTrees : List (List (String × Item)) → List Tree
  | [] => []
  | entries :: rest => .obj (entriesToTrees entries) :: elementsToTrees rest

end

end Item

/-- The entries of a table under construction, in ascending order of their keys. -/
abbrev Entries := List (String × Item)

namespace Entries

abbrev Edit := Origin → Entries → Option Entries

def editLast? (edit : Entries → Option Entries) : List Entries → Option (List Entries)
  | [] => none
  | [last] => (edit last).map ([·])
  | first :: rest => (editLast? edit rest).map (first :: ·)

/--
Changes the table at the end of a path. Tables that are missing on the way are made; a list of tables
is entered at its last one. A dotted key does not enter a table that a header has defined.
-/
def editAt? (viaDots : Bool) : List String → Edit → Edit
  | [], edit, origin, entries => edit origin entries
  | key :: path, edit, _, entries =>
    let fresh : Origin := if viaDots then .dotted else .passed
    match Keyed.lookup key entries with
    | none =>
      (editAt? viaDots path edit fresh []).map fun inner => Keyed.put key (.table fresh inner) entries
    | some (.value _) => none
    | some (.tables elements) =>
      (editLast? (editAt? viaDots path edit .defined) elements).map fun inner =>
        Keyed.put key (.tables inner) entries
    | some (.table origin inner) =>
      if viaDots ∧ origin = .defined then none
      else
        (editAt? viaDots path edit origin inner).map fun inner =>
          Keyed.put key (.table origin inner) entries

/--
Adds a value under a key that is new to the table. Only the last part of a dotted key stands in a
table made by dots, and it stands in no other.
-/
def add? (viaDots : Bool) (key : String) (value : Tree) : Edit := fun origin entries =>
  if decide (origin = .dotted) = viaDots ∧ (Keyed.lookup key entries).isNone then
    some (Keyed.put key (.value value) entries)
  else none

def assign? (key : List String) (value : Tree) (entries : Entries) : Option Entries :=
  match key.getLast? with
  | none => none
  | some name => editAt? true key.dropLast (add? (key.length > 1) name value) .defined entries

def define? (header : List String) (entries : Entries) : Option Entries :=
  match header.getLast? with
  | none => none
  | some name => editAt? false header.dropLast (open? name) .defined entries
where
  /-- Defines a table that is new, or that longer headers have only passed through. -/
  open? (name : String) : Edit := fun _ entries =>
    match Keyed.lookup name entries with
    | none => some (Keyed.put name (.table .defined []) entries)
    | some (.table .passed inner) => some (Keyed.put name (.table .defined inner) entries)
    | some _ => none

/-- Starts a further table of the list that a header names. -/
def append? (header : List String) (entries : Entries) : Option Entries :=
  match header.getLast? with
  | none => none
  | some name => editAt? false header.dropLast (extend? name) .defined entries
where
  /-- Starts a list of tables, or adds a table to one. -/
  extend? (name : String) : Edit := fun _ entries =>
    match Keyed.lookup name entries with
    | none => some (Keyed.put name (.tables [[]]) entries)
    | some (.tables elements) => some (Keyed.put name (.tables (elements ++ [[]])) entries)
    | some _ => none

end Entries

end Provisioning.Toml
