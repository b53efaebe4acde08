import Provisioning.Json.Text
import Provisioning.Text.Quoted

/-!
# Reading records from trees

A record is read from an object, field by field in the order of the keys, or from a list that gives
the fields by their position. A field that may be absent keeps its value from the draft. The first
fault decides: a field that is not known, or a value that cannot be read; then a field that is
missing.
-/

namespace Provisioning

inductive DecodeError where
  | wrongType (found : Tree) (expected : String)
  | unknownField (name : String) (expected : List String)
  | missingField (name : String)
  | tooFew (length : Nat) (expected : String)
  | tooMany (length : Nat)

namespace DecodeError

def describe : Tree → String
  | .null => "null"
  | .bool b => "boolean `" ++ toString b ++ "`"
  | .num (.whole i) => "integer `" ++ String.ofList (Number.whole i).text ++ "`"
  | .num (.real x) => "floating point `" ++ String.ofList (Number.real x).text ++ "`"
  | .str s => "string " ++ Text.quoted s
  | .arr _ => "sequence"
  | .obj _ => "map"

def choice (names : List String) : String :=
  match names.map fun name => "`" ++ name ++ "`" with
  | [] => "there are no fields"
  | [name] => "expected " ++ name
  | [first, second] => "expected " ++ first ++ " or " ++ second
  | quoted => "expected one of " ++ ", ".intercalate quoted

def message : DecodeError → String
  | wrongType found expected => "invalid type: " ++ describe found ++ ", expected " ++ expected
  | unknownField name expected => "unknown field `" ++ name ++ "`, " ++ choice expected
  | missingField name => "missing field `" ++ name ++ "`"
  | tooFew length expected => "invalid length " ++ toString length ++ ", expected " ++ expected
  | tooMany length =>
    "invalid length " ++ toString length ++ ", expected fewer elements in array"

end DecodeError

/-- A field of a record, with the way to read a value into a draft. -/
structure Field (α : Type) where
  name : String
  optional : Bool
  read : Tree → α → Except DecodeError α

/-- A type that is read field by field, starting from a draft. -/
structure Record (α : Type) where
  name : String
  draft : α
  fields : List (Field α)

namespace Record

variable {α : Type}

def readEntry (r : Record α) (draft : α) (entry : String × Tree) : Except DecodeError α :=
  match r.fields.find? fun field => field.name = entry.1 with
  | some field => field.read entry.2 draft
  | none => .error (.unknownField entry.1 (r.fields.map Field.name))

def absent? (r : Record α) (entries : List (String × Tree)) : Option (Field α) :=
  r.fields.find? fun field => !field.optional && (Keyed.lookup field.name entries).isNone

def readEntries (r : Record α) (entries : List (String × Tree)) : Except DecodeError α := do
  let whole ← entries.foldlM r.readEntry r.draft
  match r.absent? entries with
  | some field => .error (.missingField field.name)
  | none => .ok whole

/-- Reads values into fields by their position; `length` items stand in the list and `before` of
them have been read. -/
def readItems (expected : String) (length before : Nat) :
    List (Field α) → List Tree → α → Except DecodeError α
  | [], [], draft => .ok draft
  | [], _ :: _, _ => .error (.tooMany length)
  | field :: fields, [], draft =>
    if field.optional then readItems expected length before fields [] draft
    else .error (.tooFew before expected)
  | field :: fields, t :: ts, draft => do
    let draft ← field.read t draft
    readItems expected length (before + 1) fields ts draft

def read (r : Record α) : Tree → Except DecodeError α
  | .obj entries => r.readEntries entries
  | .arr items =>
    readItems ("struct " ++ r.name ++ " with " ++ toString r.fields.length ++ " elements")
      items.length 0 r.fields items r.draft
  | t => .error (.wrongType t ("struct " ++ r.name))

end Record

namespace Tree

def readText : Tree → Except DecodeError String
  | .str s => .ok s
  | t => .error (.wrongType t "a string")

def readList {α : Type} (read : Tree → Except DecodeError α) : Tree → Except DecodeError (List α)
  | .arr items => items.mapM read
  | t => .error (.wrongType t "a sequence")

def readOptional {α : Type} (read : Tree → Except DecodeError α) :
    Tree → Except DecodeError (Option α)
  | .null => .ok none
  | t => (read t).map some

end Tree

end Provisioning
