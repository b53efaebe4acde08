import Provisioning.Json.Reader

/-!
# Blanks and strings of TOML

Lines end in a line feed, with or without a carriage return before it. Controls other than the tab
stand neither in comments nor in strings, and a carriage return stands nowhere but before a line
feed. Strings of several lines drop a line end that follows their opening, and know every line end as
a line feed.
-/

namespace Provisioning.Toml

def isBlank (c : Char) : Bool :=
  c = ' ' || c = '\t'

def isLineChar (c : Char) : Bool :=
  c = '\t' || (' ' ≤ c && c ≠ '\x7f')

def skipBlank (cs : List Char) : List Char :=
  cs.dropWhile isBlank

def lineEnd? : List Char → Option (List Char)
  | '\n' :: rest => some rest
  | '\r' :: '\n' :: rest => some rest
  | _ => none

def skipComment : List Char → List Char
  | '#' :: rest => rest.dropWhile isLineChar
  | cs => cs

/-- The text after what may end a line: blanks, a comment, and the line end or the end of all. -/
def lineRest? (cs : List Char) : Option (List Char) :=
  match skipComment (skipBlank cs) with
  | [] => some []
  | rest => lineEnd? rest

def skipLines : Nat → List Char → List Char
  | 0, cs => cs
  | fuel + 1, cs =>
    match skipComment (skipBlank cs) with
    | '\n' :: rest => skipLines fuel rest
    | '\r' :: '\n' :: rest => skipLines fuel rest
    | rest => rest

def skipSpace : Nat → List Char → List Char
  | 0, cs => cs
  | fuel + 1, cs =>
    match skipBlank cs with
    | '\n' :: rest => skipSpace fuel rest
    | '\r' :: '\n' :: rest => skipSpace fuel rest
    | rest => rest

def hexNumber? (cs : List Char) : Option Nat :=
  cs.foldl (fun n c => n.bind fun n => (Json.hexValue? c).map (n * 16 + ·)) (some 0)

def scalar? (n : Nat) : Option Char :=
  if n.isValidChar then some (Char.ofNat n) else none

def escape? : List Char → Option (Char × List Char)
  | 'b' :: rest => some ('\x08', rest)
  | 'f' :: rest => some ('\x0c', rest)
  | 'n' :: rest => some ('\n', rest)
  | 'r' :: rest => some ('\r', rest)
  | 't' :: rest => some ('\t', rest)
  | '\\' :: rest => some ('\\', rest)
  | '"' :: rest => some ('"', rest)
  | 'u' :: rest => digits? 4 rest
  | 'U' :: rest => digits? 8 rest
  | _ => none
where
  /-- A character given by `n` hexadecimal digits. -/
  digits? (n : Nat) (cs : List Char) : Option (Char × List Char) :=
    if (cs.take n).length = n then
      ((hexNumber? (cs.take n)).bind scalar?).map (·, cs.drop n)
    else none

/-- The rest of a string with escapes on one line, up to its closing quote. -/
def basicBody? : Nat → List Char → Option (List Char × List Char)
  | 0, _ => none
  | _, [] => none
  | _, '"' :: rest => some ([], rest)
  | fuel + 1, '\\' :: rest =>
    (escape? rest).bind fun e => (basicBody? fuel e.2).map fun p => (e.1 :: p.1, p.2)
  | fuel + 1, c :: rest =>
    if isLineChar c then (basicBody? fuel rest).map fun p => (c :: p.1, p.2) else none

def literalBody? : List Char → Option (List Char × List Char)
  | [] => none
  | '\'' :: rest => some ([], rest)
  | c :: rest =>
    if isLineChar c then (literalBody? rest).map fun p => (c :: p.1, p.2) else none

/-- Where a backslash ends its line, the text after the blanks and line ends that follow. -/
def continuation? (cs : List Char) : Option (List Char) :=
  (lineEnd? (skipBlank cs)).map fun rest => skipSpace rest.length rest

/--
The rest of a string of several lines, up to its closing quotes. Of up to five quotes in a row the
last three close the string; fewer than three are part of it.
-/
def linesBody? (quote : Char) (escapes : Bool) : Nat → List Char → Option (List Char × List Char)
  | 0, _ => none
  | _, [] => none
  | fuel + 1, c :: rest =>
    if c = quote then
      let run := (c :: rest).takeWhile (· = quote)
      let after := (c :: rest).dropWhile (· = quote)
      if run.length < 3 then
        (linesBody? quote escapes fuel after).map fun p => (run ++ p.1, p.2)
      else if run.length ≤ 5 then some (run.drop 3, after)
      else none
    else if escapes ∧ c = '\\' then
      match continuation? rest with
      | some after => linesBody? quote escapes fuel after
      | none =>
        (escape? rest).bind fun e =>
          (linesBody? quote escapes fuel e.2).map fun p => (e.1 :: p.1, p.2)
    else
      match lineEnd? (c :: rest) with
      | some after => (linesBody? quote escapes fuel after).map fun p => ('\n' :: p.1, p.2)
      | none =>
        if isLineChar c then
          (linesBody? quote escapes fuel rest).map fun p => (c :: p.1, p.2)
        else none

def dropLineEnd (cs : List Char) : List Char :=
  (lineEnd? cs).getD cs

def string? : List Char → Option (List Char × List Char)
  | '"' :: '"' :: '"' :: rest => linesBody? '"' true (rest.length + 1) (dropLineEnd rest)
  | '\'' :: '\'' :: '\'' :: rest => linesBody? '\'' false (rest.length + 1) (dropLineEnd rest)
  | '"' :: rest => basicBody? (rest.length + 1) rest
  | '\'' :: rest => literalBody? rest
  | _ => none

def isKeyChar (c : Char) : Bool :=
  c.isAlphanum || c = '-' || c = '_'

def keyPart? : List Char → Option (String × List Char)
  | '"' :: rest => (basicBody? (rest.length + 1) rest).map fun p => (String.ofList p.1, p.2)
  | '\'' :: rest => (literalBody? rest).map fun p => (String.ofList p.1, p.2)
  | cs =>
    if (cs.takeWhile isKeyChar).isEmpty then none
    else some (String.ofList (cs.takeWhile isKeyChar), cs.dropWhile isKeyChar)

/-- The parts of a key with dots between, and the rest; blanks may stand around every part. -/
def keyParts? : Nat → List Char → Option (List String × List Char)
  | 0, _ => none
  | fuel + 1, cs =>
    (keyPart? (skipBlank cs)).bind fun p =>
      match skipBlank p.2 with
      | '.' :: rest => (keyParts? fuel rest).map fun q => (p.1 :: q.1, q.2)
      | rest => some ([p.1], rest)

/-- How many parts a key may not reach, and how many lists and tables may not stand in each other. -/
def limit : Nat := 80

def key? (cs : List Char) : Option (List String × List Char) :=
  match keyParts? (cs.length + 1) cs with
  | some (parts, rest) => if parts.length < limit then some (parts, rest) else none
  | none => none

end Provisioning.Toml
