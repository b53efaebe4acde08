/-!
# A place in a YAML text

Blocks are told apart by the column that they start in, so reading keeps track of lines and columns
along with the text that is left.
-/

namespace Provisioning.Yaml

def isBlank (c : Char) : Bool :=
  c = ' ' || c = '\t'

def isBreak (c : Char) : Bool :=
  c = '\n' || c = '\r' || c = '\u0085' || c = '\u2028' || c = '\u2029'

def startsBreak : List Char → Bool
  | c :: _ => isBreak c
  | [] => false

def startsBreakOrEnd : List Char → Bool
  | c :: _ => isBreak c
  | [] => true

/-- Whether a text starts with a blank or a line end, or is at its end. -/
def startsGap : List Char → Bool
  | c :: _ => isBlank c || isBreak c
  | [] => true

def isNameChar (c : Char) : Bool :=
  c.isAlphanum || c = '_' || c = '-'

/-- The characters that a text may hold at all. -/
def isAllowed (c : Char) : Bool :=
  c = '\t' || c = '\n' || c = '\r' || (' ' ≤ c && c ≤ '~') || c = '\u0085' ||
    ('\u00a0' ≤ c && c ≤ '\ufffd') || '\uffff' < c

/-- The text that is left, with the number of characters, lines and columns before it. -/
structure Cursor where
  rest : List Char
  index : Nat := 0
  line : Nat := 0
  column : Nat := 0

namespace Cursor

def next (c : Cursor) : Cursor :=
  { c with rest := c.rest.drop 1, index := c.index + 1, column := c.column + 1 }

def skip (c : Cursor) (n : Nat) : Cursor :=
  { c with rest := c.rest.drop n, index := c.index + n, column := c.column + n }

def nextLine (c : Cursor) : List Char × Cursor :=
  match c.rest with
  | '\r' :: '\n' :: rest => (['\n'], ⟨rest, c.index + 2, c.line + 1, 0⟩)
  | ch :: rest =>
    if isBreak ch then
      (if ch = '\u2028' ∨ ch = '\u2029' then [ch] else ['\n'], ⟨rest, c.index + 1, c.line + 1, 0⟩)
    else ([], c)
  | [] => ([], c)

def takeWhile (c : Cursor) (test : Char → Bool) : List Char × Cursor :=
  let taken := c.rest.takeWhile test
  (taken, c.skip taken.length)

def skipBlanks (c : Cursor) : Cursor :=
  (c.takeWhile isBlank).2

def skipComment (c : Cursor) : Cursor :=
  match c.rest with
  | '#' :: _ => (c.takeWhile fun ch => !isBreak ch).2
  | _ => c

/-- The place after the rest of a line, which may hold blanks and a comment only. -/
def skipLineRest? (c : Cursor) : Option Cursor :=
  let c := c.skipBlanks.skipComment
  if startsBreakOrEnd c.rest then some c.nextLine.2 else none

/-- Whether a line starts here with the mark of a document's start or end. -/
def atMark (c : Cursor) : Bool :=
  c.column = 0 &&
    match c.rest with
    | '-' :: '-' :: '-' :: rest => startsGap rest
    | '.' :: '.' :: '.' :: rest => startsGap rest
    | _ => false

end Cursor

end Provisioning.Yaml
