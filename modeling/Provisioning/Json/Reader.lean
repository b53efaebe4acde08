import Provisioning.Json.Number

/-!
# Reading JSON

Reading is strict: no comments, no trailing commas, no marks before the text, and at most
`maxDepth` lists and objects inside each other. Where a key occurs twice, its last value counts.
-/

namespace Provisioning.Json

/-- How many lists and objects may stand inside each other. -/
def maxDepth : Nat := 127

def isBlank (c : Char) : Bool :=
  c = ' ' || c = '\n' || c = '\t' || c = '\r'

def skipBlank (cs : List Char) : List Char :=
  cs.dropWhile isBlank

def hexValue? (c : Char) : Option Nat :=
  if '0' ≤ c ∧ c ≤ '9' then some (c.toNat - 48)
  else if 'a' ≤ c ∧ c ≤ 'f' then some (c.toNat - 87)
  else if 'A' ≤ c ∧ c ≤ 'F' then some (c.toNat - 55)
  else none

def hex4? (a b c d : Char) : Option Nat :=
  match hexValue? a, hexValue? b, hexValue? c, hexValue? d with
  | some a, some b, some c, some d => some (((a * 16 + b) * 16 + c) * 16 + d)
  | _, _, _, _ => none

def unescape? : Char → Option Char
  | '"' => some '"'
  | '\\' => some '\\'
  | '/' => some '/'
  | 'b' => some '\x08'
  | 'f' => some '\x0c'
  | 'n' => some '\n'
  | 'r' => some '\r'
  | 't' => some '\t'
  | _ => none

/-- The character of two code units above the basic plane. -/
def joinUnits? (high low : Nat) : Option Char :=
  if 0xd800 ≤ high ∧ high < 0xdc00 ∧ 0xdc00 ≤ low ∧ low < 0xe000 then
    some (Char.ofNat (0x10000 + (high - 0xd800) * 0x400 + (low - 0xdc00)))
  else none

def body? : List Char → Option (List Char × List Char)
  | [] => none
  | '"' :: rest => some ([], rest)
  | '\\' :: 'u' :: a :: b :: c :: d :: rest =>
    match hex4? a b c d with
    | none => none
    | some n =>
      if n < 0xd800 ∨ 0xe000 ≤ n then (body? rest).map fun p => (Char.ofNat n :: p.1, p.2)
      else
        match rest with
        | '\\' :: 'u' :: a :: b :: c :: d :: rest =>
          match (hex4? a b c d).bind (joinUnits? n) with
          | none => none
          | some ch => (body? rest).map fun p => (ch :: p.1, p.2)
        | _ => none
  | '\\' :: e :: rest =>
    match unescape? e with
    | none => none
    | some ch => (body? rest).map fun p => (ch :: p.1, p.2)
  | c :: rest =>
    if c.toNat < 0x20 ∨ c = '\\' then none else (body? rest).map fun p => (c :: p.1, p.2)

mutual

/-- The tree that a text starts with, and the rest. -/
def value? : Nat → Nat → List Char → Option (Tree × List Char)
  | 0, _, _ => none
  | fuel + 1, depth, cs =>
    match skipBlank cs with
    | '"' :: r => (body? r).map fun p => (.str (String.ofList p.1), p.2)
    | '[' :: r =>
      match depth with
      | 0 => none
      | depth + 1 =>
        match skipBlank r with
        | ']' :: r => some (.arr [], r)
        | r => (items? fuel depth r).map fun p => (.arr p.1, p.2)
    | '\x7b' :: r =>
      match depth with
      | 0 => none
      | depth + 1 =>
        match skipBlank r with
        | '\x7d' :: r => some (.obj [], r)
        | r => (entries? fuel depth r).map fun p => (Tree.ofEntries p.1, p.2)
    | 'n' :: 'u' :: 'l' :: 'l' :: r => some (.null, r)
    | 't' :: 'r' :: 'u' :: 'e' :: r => some (.bool true, r)
    | 'f' :: 'a' :: 'l' :: 's' :: 'e' :: r => some (.bool false, r)
    | r => (number? r).map fun p => (.num p.1, p.2)

def items? : Nat → Nat → List Char → Option (List Tree × List Char)
  | 0, _, _ => none
  | fuel + 1, depth, cs =>
    (value? fuel depth cs).bind fun p =>
      match skipBlank p.2 with
      | ',' :: r => (items? fuel depth r).map fun q => (p.1 :: q.1, q.2)
      | ']' :: r => some ([p.1], r)
      | _ => none

def entries? : Nat → Nat → List Char → Option (List (String × Tree) × List Char)
  | 0, _, _ => none
  | fuel + 1, depth, cs =>
    match skipBlank cs with
    | '"' :: r =>
      (body? r).bind fun k =>
        match skipBlank k.2 with
        | ':' :: r =>
          (value? fuel depth r).bind fun p =>
            match skipBlank p.2 with
            | ',' :: r =>
              (entries? fuel depth r).map fun q => ((String.ofList k.1, p.1) :: q.1, q.2)
            | '\x7d' :: r => some ([(String.ofList k.1, p.1)], r)
            | _ => none
        | _ => none
    | _ => none

end

def read? (text : List Char) : Option Tree :=
  match value? (2 * text.length + 2) maxDepth text with
  | some (t, rest) => if skipBlank rest = [] then some t else none
  | none => none

end Provisioning.Json
