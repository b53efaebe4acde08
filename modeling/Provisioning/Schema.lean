import Provisioning.Json.Text

/-!
# Schemas

A schema says which trees are acceptable: a text of some least length, a list of acceptable items,
or an object with certain properties and no others. The report on a tree lists every fault. For an
object the properties that are missing come first, then what is wrong below the known ones, in
alphabetical order, and last the properties that have no place in it. A tree of the wrong kind has
that one fault and no more.
-/

namespace Provisioning

inductive Kind where
  | object
  | array
  | string
  deriving DecidableEq, Repr

def Kind.name : Kind → String
  | .object => "object"
  | .array => "array"
  | .string => "string"

/-- What is acceptable in some place of a document. The properties of an object are in alphabetical
order. -/
inductive Schema where
  | text (least : Nat)
  | list (items : Schema)
  | object (required : List String) (properties : List (String × Schema))

inductive Violation where
  | wrongKind (value : Tree) (expected : Kind)
  | missing (name : String)
  | tooShort (value : String) (least : Nat)
  | unexpected (names : List String)

namespace Violation

/-- Names in single quotes, with commas between. -/
def listed (names : List String) : String :=
  ", ".intercalate (names.map fun name => "'" ++ name ++ "'")

def message : Violation → String
  | wrongKind value expected =>
    Json.compact value ++ " is not of type " ++ Json.compact (.str expected.name)
  | missing name => Json.compact (.str name) ++ " is a required property"
  | tooShort value least =>
    Json.compact (.str value) ++ " is shorter than " ++ toString least ++
      (if least = 1 then " character" else " characters")
  | unexpected [name] =>
    "Additional properties are not allowed (" ++ listed [name] ++ " was unexpected)"
  | unexpected names =>
    "Additional properties are not allowed (" ++ listed names ++ " were unexpected)"

end Violation

namespace Schema

def missing (required : List String) (entries : List (String × Tree)) : List Violation :=
  (required.filter fun name => (Keyed.lookup name entries).isNone).map .missing

def strangers (known : List String) (entries : List (String × Tree)) : List String :=
  (entries.map Prod.fst).filter fun name => !known.contains name

def unexpected (known : List String) (entries : List (String × Tree)) : List Violation :=
  match strangers known entries with
  | [] => []
  | names => [.unexpected names]

mutual

def violations : Schema → Tree → List Violation
  | .text least, t =>
    match t with
    | .str s => if s.length < least then [.tooShort s least] else []
    | _ => [.wrongKind t .string]
  | .list items, t =>
    match t with
    | .arr ts => ts.flatMap fun item => violations items item
    | _ => [.wrongKind t .array]
  | .object required properties, t =>
    match t with
    | .obj entries =>
      missing required entries ++ violationsBelow properties entries ++
        unexpected (properties.map Prod.fst) entries
    | _ => [.wrongKind t .object]

/-- Every fault below the known properties of an object. -/
def violationsBelow : List (String × Schema) → List (String × Tree) → List Violation
  | [], _ => []
  | (name, schema) :: rest, entries =>
    (match Keyed.lookup name entries with
      | some t => violations schema t
      | none => []) ++ violationsBelow rest entries

end

end Schema

end Provisioning
