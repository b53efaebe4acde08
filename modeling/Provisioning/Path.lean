import Provisioning.Text.Utf8

/-!
# Paths

A path is a sequence of bytes, cut into names at each slash. Empty names and single dots say nothing
and are passed over, except that a path may start with a slash, which makes it absolute, or with a
single dot.
-/

namespace Provisioning

structure Path where
  bytes : List UInt8
  deriving DecidableEq, Repr

namespace Path

def slash : UInt8 := 0x2f

def dot : UInt8 := 0x2e

def ofString (s : String) : Path := ⟨Text.encode s⟩

def display (p : Path) : String := Text.display p.bytes

def split : List UInt8 → List (List UInt8)
  | [] => [[]]
  | b :: rest =>
    if b = slash then [] :: split rest
    else
      match split rest with
      | [] => [[b]]
      | name :: names => (b :: name) :: names

def join : List (List UInt8) → List UInt8
  | [] => []
  | [name] => name
  | name :: names => name ++ slash :: join names

/-- Whether a piece says nothing about the way. -/
def isSilent (name : List UInt8) : Bool :=
  name = [] || name = [dot]

def names (p : Path) : List (List UInt8) :=
  (split p.bytes).filter fun name => !isSilent name

def isAbsolute (p : Path) : Bool :=
  p.bytes.head? = some slash

/-- The name that the path ends in, unless it ends in a step upwards. -/
def fileName? (p : Path) : Option (List UInt8) :=
  match p.names.getLast? with
  | some name => if name = [dot, dot] then none else some name
  | none => none

def cutLastDot : List UInt8 → Option (List UInt8 × List UInt8)
  | [] => none
  | b :: rest =>
    match cutLastDot rest with
    | some (stem, ext) => some (b :: stem, ext)
    | none => if b = dot then some ([], rest) else none

/-- What stands after the last dot of the file name, unless nothing stands before it. -/
def extension? (p : Path) : Option (List UInt8) :=
  match p.fileName?.bind cutLastDot with
  | some ([], _) => none
  | some (_, ext) => some ext
  | none => none

def start (p : Path) : List UInt8 :=
  match p.bytes with
  | b :: rest =>
    if b = slash then [slash]
    else if b = dot ∧ (rest = [] ∨ rest.head? = some slash) then [dot]
    else []
  | [] => []

def body (p : Path) : List (List UInt8) :=
  split (p.bytes.drop p.start.length)

def dropSilent (pieces : List (List UInt8)) : List (List UInt8) :=
  (pieces.reverse.dropWhile isSilent).reverse

/-- The path without its last name; nothing lies above the root and above the empty path. -/
def parent? (p : Path) : Option Path :=
  match dropSilent p.body with
  | [] => if p.start = [dot] then some ⟨[]⟩ else none
  | pieces => some ⟨p.start ++ join (dropSilent pieces.dropLast)⟩

/-- The path `q` as seen from the directory `p`: an absolute path stays as it is. -/
def resolve (p q : Path) : Path :=
  if q.isAbsolute then q
  else if p.bytes = [] ∨ p.bytes.getLast? = some slash then ⟨p.bytes ++ q.bytes⟩
  else ⟨p.bytes ++ slash :: q.bytes⟩

end Path

end Provisioning
