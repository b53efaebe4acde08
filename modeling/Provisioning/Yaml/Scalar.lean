import Provisioning.Yaml.Cursor
import Provisioning.Json.Reader

/-!
# Scalars of YAML

A scalar is plain, quoted or a block. Where a plain or quoted scalar runs over several lines, the
blanks around a line end fall away; a single line end becomes a space, and of several the first is
dropped. A block keeps its lines, or folds them in the same way unless they are indented further.
-/

namespace Provisioning.Yaml

/-- What stands between two pieces of a scalar. -/
inductive Gap where
  | nothing
  | blanks (text : List Char)
  | lines (first : List Char) (more : List Char)

namespace Gap

def fold : Gap → List Char
  | nothing => []
  | blanks text => text
  | lines first more =>
    if first = ['\n'] then (if more.isEmpty then [' '] else more) else first ++ more

def hasBreak : Gap → Bool
  | lines _ _ => true
  | _ => false

/--
Reads blanks and line ends onto a gap. In a plain scalar no tab may stand among the blanks that
indent a line, up to the column `indent`.
-/
def read? (indent : Nat) : Nat → Gap → Cursor → Option (Gap × Cursor)
  | 0, gap, c => some (gap, c)
  | fuel + 1, gap, c =>
    match c.rest with
    | [] => some (gap, c)
    | ch :: _ =>
      if isBlank ch then
        match gap with
        | nothing => read? indent fuel (blanks [ch]) c.next
        | blanks text => read? indent fuel (blanks (text ++ [ch])) c.next
        | lines first more =>
          if ch = '\t' ∧ c.column < indent then none
          else read? indent fuel (lines first more) c.next
      else if isBreak ch then
        match gap with
        | lines first more => read? indent fuel (lines first (more ++ c.nextLine.1)) c.nextLine.2
        | _ => read? indent fuel (lines c.nextLine.1 []) c.nextLine.2
      else some (gap, c)

end Gap

/-- Whether a plain scalar ends here; inside brackets a colon before punctuation is an error. -/
def plainEnds? (inFlow : Bool) : List Char → Option Bool
  | [] => some true
  | ch :: rest =>
    if isBlank ch || isBreak ch then some true
    else if inFlow ∧ ch = ':' ∧ (rest.head?.any fun d => ",?[]\x7b\x7d".toList.contains d) then none
    else if ch = ':' ∧ startsGap rest then some true
    else if inFlow ∧ (",[]\x7b\x7d".toList.contains ch ∨ ch = '?' ∧ startsGap rest) then some true
    else some false

def plainPiece? (inFlow : Bool) : Nat → Cursor → Option (List Char × Cursor)
  | 0, c => some ([], c)
  | fuel + 1, c =>
    match plainEnds? inFlow c.rest with
    | none => none
    | some true => some ([], c)
    | some false =>
      match c.rest with
      | [] => some ([], c)
      | ch :: _ => (plainPiece? inFlow fuel c.next).map fun p => (ch :: p.1, p.2)

/--
A plain scalar with the place after it, and whether it is followed by a line end. Outside brackets
it ends before a line that is indented less than `indent`.
-/
def plain? (inFlow : Bool) (indent : Nat) :
    Nat → List Char → Gap → Cursor → Option (List Char × Bool × Cursor)
  | 0, text, gap, c => some (text, gap.hasBreak, c)
  | fuel + 1, text, gap, c =>
    if c.atMark then some (text, gap.hasBreak, c)
    else if c.rest.head? = some '#' then some (text, gap.hasBreak, c)
    else
      (plainPiece? inFlow c.rest.length c).bind fun piece =>
        let text := if piece.1.isEmpty then text else text ++ gap.fold ++ piece.1
        let gap := if piece.1.isEmpty then gap else .nothing
        match piece.2.rest with
        | [] => some (text, gap.hasBreak, piece.2)
        | ch :: _ =>
          if isBlank ch || isBreak ch then
            (Gap.read? indent piece.2.rest.length gap piece.2).bind fun p =>
              if !inFlow ∧ p.2.column < indent then some (text, p.1.hasBreak, p.2)
              else plain? inFlow indent fuel text p.1 p.2
          else some (text, gap.hasBreak, piece.2)

def unescape? : Char → Option Char
  | '0' => some '\x00'
  | 'a' => some '\x07'
  | 'b' => some '\x08'
  | 't' => some '\t'
  | '\t' => some '\t'
  | 'n' => some '\n'
  | 'v' => some '\x0b'
  | 'f' => some '\x0c'
  | 'r' => some '\r'
  | 'e' => some '\x1b'
  | ' ' => some ' '
  | '"' => some '"'
  | '/' => some '/'
  | '\\' => some '\\'
  | 'N' => some '\u0085'
  | '_' => some '\u00a0'
  | 'L' => some '\u2028'
  | 'P' => some '\u2029'
  | _ => none

def codeLength? : Char → Option Nat
  | 'x' => some 2
  | 'u' => some 4
  | 'U' => some 8
  | _ => none

def code? (ds : List Char) : Option Char :=
  (ds.foldl (fun n d => n.bind fun n => (Json.hexValue? d).map (n * 16 + ·)) (some 0)).bind fun n =>
    if n.isValidChar then some (Char.ofNat n) else none

def escape? : List Char → Option (Char × Nat)
  | e :: rest =>
    match codeLength? e with
    | some n =>
      if (rest.take n).length = n then (code? (rest.take n)).map (·, n + 1) else none
    | none => (unescape? e).map (·, 1)
  | [] => none

/--
The piece of a quoted scalar up to the next gap or the closing quote, and whether it ends in a
backslash that takes the line end away.
-/
def quotedPiece? (double : Bool) : Nat → Cursor → Option (List Char × Bool × Cursor)
  | 0, c => some ([], false, c)
  | fuel + 1, c =>
    match c.rest with
    | [] => some ([], false, c)
    | ch :: rest =>
      if isBlank ch || isBreak ch then some ([], false, c)
      else if !double ∧ ch = '\'' ∧ rest.head? = some '\'' then
        (quotedPiece? double fuel (c.skip 2)).map fun p => ('\'' :: p.1, p.2)
      else if ch = (if double then '"' else '\'') then some ([], false, c)
      else if double ∧ ch = '\\' then
        if startsBreak rest then some ([], true, c.next.nextLine.2)
        else
          (escape? rest).bind fun e =>
            (quotedPiece? double fuel (c.skip (e.2 + 1))).map fun p => (e.1 :: p.1, p.2)
      else (quotedPiece? double fuel c.next).map fun p => (ch :: p.1, p.2)

def quoted? (double : Bool) : Nat → List Char → Cursor → Option (List Char × Cursor)
  | 0, _, _ => none
  | fuel + 1, text, c =>
    if c.atMark || c.rest.isEmpty then none
    else
      (quotedPiece? double c.rest.length c).bind fun (piece, escaped, after) =>
        if after.rest.head? = some (if double then '"' else '\'') then some (text ++ piece, after.next)
        else
          (Gap.read? 0 after.rest.length (if escaped then .lines [] [] else .nothing) after).bind
            fun p => quoted? double fuel (text ++ piece ++ p.1.fold) p.2

/-- What happens to the line ends after the last line of a block. -/
inductive Chomping where
  | strip
  | clip
  | keep
  deriving DecidableEq

def blockMarks? (c : Cursor) : Option (Chomping × Option Nat × Cursor) :=
  match c.rest with
  | a :: b :: _ =>
    match chomping? a, digit? a, chomping? b, digit? b with
    | some chomp, _, _, some n => if n = 0 then none else some (chomp, some n, c.skip 2)
    | some chomp, _, _, none => some (chomp, none, c.next)
    | none, some n, some chomp, _ => if n = 0 then none else some (chomp, some n, c.skip 2)
    | none, some n, none, _ => if n = 0 then none else some (.clip, some n, c.next)
    | none, none, _, _ => some (.clip, none, c)
  | [a] =>
    match chomping? a, digit? a with
    | some chomp, _ => some (chomp, none, c.next)
    | none, some n => if n = 0 then none else some (.clip, some n, c.next)
    | none, none => some (.clip, none, c)
  | [] => some (.clip, none, c)
where
  /-- The mark that says how the end is chomped. -/
  chomping? (ch : Char) : Option Chomping :=
    if ch = '+' then some .keep else if ch = '-' then some .strip else none
  /-- The mark that gives the indentation. -/
  digit? (ch : Char) : Option Nat :=
    if ch.isDigit then some (ch.toNat - 48) else none

/--
Reads indentation and empty lines of a block. Gives the line ends, the place of the first line that
is not empty, and the furthest column on the way. No tab may stand where the block is indented.
-/
def blockBreaks? (indent : Option Nat) :
    Nat → List Char → Nat → Cursor → Option (List Char × Nat × Cursor)
  | 0, breaks, furthest, c => some (breaks, furthest, c)
  | fuel + 1, breaks, furthest, c =>
    let spaces := (c.rest.takeWhile (· = ' ')).length
    let c := c.skip (match indent with | none => spaces | some n => min spaces (n - c.column))
    let furthest := max furthest c.column
    let indenting : Bool := match indent with | none => true | some n => decide (c.column < n)
    if indenting ∧ c.rest.head? = some '\t' then none
    else if startsBreak c.rest then
      blockBreaks? indent fuel (breaks ++ c.nextLine.1) furthest c.nextLine.2
    else some (breaks, furthest, c)

def blockLines? (literal : Bool) (indent : Nat) :
    Nat → List Char → List Char → List Char → Bool → Cursor →
      Option (List Char × List Char × List Char × Cursor)
  | 0, text, last, breaks, _, c => some (text, last, breaks, c)
  | fuel + 1, text, last, breaks, afterBlank, c =>
    if c.column = indent ∧ !c.rest.isEmpty then
      let blank := c.rest.head?.any isBlank
      let joint :=
        if !literal ∧ last = ['\n'] ∧ !afterBlank ∧ !blank then
          (if breaks.isEmpty then [' '] else breaks)
        else last ++ breaks
      let (line, c) := c.takeWhile fun ch => !isBreak ch
      let (last, c) := c.nextLine
      (blockBreaks? (some indent) (c.rest.length + 1) [] 0 c).bind fun (breaks, _, c) =>
        blockLines? literal indent fuel (text ++ joint ++ line) last breaks blank c
    else some (text, last, breaks, c)

/--
A block after its indicator, inside a collection that is indented by `parent` columns less one. The
indentation is given by a mark, or by the first line that is not empty.
-/
def block? (literal : Bool) (parent : Nat) (c : Cursor) : Option (List Char × Cursor) :=
  (blockMarks? c).bind fun (chomping, mark, c) =>
    c.skipLineRest?.bind fun c =>
      let given := mark.map fun n => parent - 1 + n
      (blockBreaks? given (c.rest.length + 1) [] 0 c).bind fun (breaks, furthest, c) =>
        let indent := given.getD (max furthest (max parent 1))
        (blockLines? literal indent (c.rest.length + 1) [] [] breaks false c).map
          fun (text, last, breaks, c) =>
            (text ++ (if chomping = .strip then [] else last) ++
              (if chomping = .keep then breaks else []), c)

end Provisioning.Yaml
