import Provisioning.Toml.Text

/-!
# Numbers and dates of TOML

Whole numbers fit in 64 bits with a sign. Numbers with a fraction or an exponent are rounded to
binary64; a positive one that is too large is refused, and a negative one, like the infinities and
the non-numbers, has no tree but the null. Dates and times keep their text in a normal form, with
fractions of a second to nine places.
-/

namespace Provisioning.Toml

def digitIn? (base : Nat) (c : Char) : Option Nat :=
  match Json.hexValue? c with
  | some d => if d < base then some d else none
  | none => none

def isDigitIn (base : Nat) (c : Char) : Bool :=
  (digitIn? base c).isSome

/-- Digits that follow another digit: single underscores may stand between two of them. -/
def moreDigits (base : Nat) : List Char → List Char × List Char
  | '_' :: c :: rest =>
    if isDigitIn base c then
      let p := moreDigits base rest
      (c :: p.1, p.2)
    else ([], '_' :: c :: rest)
  | c :: rest =>
    if isDigitIn base c then
      let p := moreDigits base rest
      (c :: p.1, p.2)
    else ([], c :: rest)
  | [] => ([], [])

def digits? (base : Nat) : List Char → Option (List Char × List Char)
  | c :: rest =>
    if isDigitIn base c then
      let p := moreDigits base rest
      some (c :: p.1, p.2)
    else none
  | [] => none

/-- Digits of a whole number in decimal: a zero stands alone. -/
def wholeDigits? : List Char → Option (List Char × List Char)
  | '0' :: rest => some (['0'], rest)
  | cs => digits? 10 cs

def numberIn (base : Nat) (ds : List Char) : Nat :=
  ds.foldl (fun n d => n * base + (Json.hexValue? d).getD 0) 0

def sign : List Char → Bool × List Char
  | '-' :: rest => (true, rest)
  | '+' :: rest => (false, rest)
  | cs => (false, cs)

def whole? (negative : Bool) (n : Nat) : Option Tree :=
  if negative then (if n ≤ Nat.pow 2 63 then some (.num (.whole (-(n : Int)))) else none)
  else if n < Nat.pow 2 63 then some (.num (.whole n)) else none

def based? (base : Nat) (cs : List Char) : Option (Tree × List Char) :=
  (digits? base cs).bind fun p => (whole? false (numberIn base p.1)).map (·, p.2)

def integer? : List Char → Option (Tree × List Char)
  | '0' :: 'x' :: rest => based? 16 rest
  | '0' :: 'o' :: rest => based? 8 rest
  | '0' :: 'b' :: rest => based? 2 rest
  | cs =>
    (wholeDigits? (sign cs).2).bind fun p =>
      (whole? (sign cs).1 (numberIn 10 p.1)).map (·, p.2)

def fraction? : List Char → Option (List Char × List Char)
  | '.' :: rest => digits? 10 rest
  | _ => none

def exponent? : List Char → Option (Int × List Char)
  | c :: rest =>
    if c = 'e' ∨ c = 'E' then
      (digits? 10 (sign rest).2).map fun p =>
        let n : Int := numberIn 10 p.1
        (if (sign rest).1 then -n else n, p.2)
    else none
  | [] => none

def real? (negative : Bool) (digits : Nat) (exponent : Int) : Option Tree :=
  match Binary64.ofDecimal? digits exponent with
  | some m => some (.num (.real ⟨negative, m⟩))
  -- an overflow is refused only without a minus; with one it is an infinity, and so no number
  | none => if negative then some .null else none

def float? (cs : List Char) : Option (Tree × List Char) :=
  match wholeDigits? (sign cs).2 with
  | none =>
    match (sign cs).2 with
    | 'i' :: 'n' :: 'f' :: rest => some (.null, rest)
    | 'n' :: 'a' :: 'n' :: rest => some (.null, rest)
    | _ => none
  | some (before, rest) =>
    match fraction? rest with
    | some (after, rest) =>
      let digits := numberIn 10 (before ++ after)
      match exponent? rest with
      | some (e, rest) => (real? (sign cs).1 digits (e - after.length)).map (·, rest)
      | none => (real? (sign cs).1 digits (-(after.length : Int))).map (·, rest)
    | none =>
      match exponent? rest with
      | some (e, rest) => (real? (sign cs).1 (numberIn 10 before) e).map (·, rest)
      | none => none

def fixed? (n : Nat) (cs : List Char) : Option (Nat × List Char) :=
  if (cs.take n).length = n ∧ (cs.take n).all Char.isDigit then
    some (numberIn 10 (cs.take n), cs.drop n)
  else none

def pair? (lo hi : Nat) (cs : List Char) : Option (Nat × List Char) :=
  match fixed? 2 cs with
  | some (n, rest) => if lo ≤ n ∧ n ≤ hi then some (n, rest) else none
  | none => none

def after? (c : Char) : List Char → Option (List Char)
  | d :: rest => if d = c then some rest else none
  | [] => none

def daysIn (year month : Nat) : Nat :=
  if month = 2 then
    (if year % 4 = 0 ∧ (year % 100 ≠ 0 ∨ year % 400 = 0) then 29 else 28)
  else if month = 4 ∨ month = 6 ∨ month = 9 ∨ month = 11 then 30
  else 31

def padded (n : Nat) (i : Nat) : List Char :=
  let ds := Nat.toDigits 10 i
  List.replicate (n - ds.length) '0' ++ ds

def date? (cs : List Char) : Option (List Char × List Char) := do
  let (year, cs) ← fixed? 4 cs
  let cs ← after? '-' cs
  let (month, cs) ← pair? 1 12 cs
  let cs ← after? '-' cs
  let (day, cs) ← pair? 1 31 cs
  if day ≤ daysIn year month then
    some (padded 4 year ++ '-' :: padded 2 month ++ '-' :: padded 2 day, cs)
  else none

/-- The fraction of a second in normal form: nine places at most, and no zeros at the end. -/
def secondFraction (ds : List Char) : List Char :=
  let kept := ((ds.take 9).reverse.dropWhile (· = '0')).reverse
  if kept.isEmpty then [] else '.' :: kept

def time? (cs : List Char) : Option (List Char × List Char) := do
  let (hour, cs) ← pair? 0 23 cs
  let cs ← after? ':' cs
  let (minute, cs) ← pair? 0 59 cs
  let cs ← after? ':' cs
  -- a minute may have a leap second
  let (second, cs) ← pair? 0 60 cs
  let clock := padded 2 hour ++ ':' :: padded 2 minute ++ ':' :: padded 2 second
  match cs with
  | '.' :: rest =>
    let (ds, after) := (rest.takeWhile Char.isDigit, rest.dropWhile Char.isDigit)
    if ds.isEmpty then some (clock, cs) else some (clock ++ secondFraction ds, after)
  | _ => some (clock, cs)

/-- The distance from universal time in normal form: the minus of a zero distance is lost. -/
def offset? : List Char → Option (List Char × List Char)
  | 'Z' :: rest => some (['Z'], rest)
  | 'z' :: rest => some (['Z'], rest)
  | c :: rest =>
    if c = '+' ∨ c = '-' then do
      let (hour, cs) ← pair? 0 23 rest
      let cs ← after? ':' cs
      let (minute, cs) ← pair? 0 59 cs
      let mark := if c = '-' ∧ hour + minute ≠ 0 then '-' else '+'
      some (mark :: padded 2 hour ++ ':' :: padded 2 minute, cs)
    else none
  | [] => none

/-- The mark between a date and a time. -/
def timeMark? : List Char → Option (List Char)
  | 'T' :: rest => some rest
  | 't' :: rest => some rest
  | ' ' :: rest => some rest
  | _ => none

/-- A date, a time, or both, in normal form. -/
def moment? (cs : List Char) : Option (List Char × List Char) :=
  match date? cs with
  | some (date, rest) =>
    match (timeMark? rest).bind time? with
    | some (time, rest) =>
      match offset? rest with
      | some (offset, rest) => some (date ++ 'T' :: time ++ offset, rest)
      | none => some (date ++ 'T' :: time, rest)
    | none => some (date, rest)
  | none => time? cs

/-- The key under which a date or a time stands in its tree. -/
def momentKey : String := "$__toml_private_datetime"

def numeral? (cs : List Char) : Option (Tree × List Char) :=
  match moment? cs with
  | some (text, rest) => some (.obj [(momentKey, .str (String.ofList text))], rest)
  | none =>
    match float? cs with
    | some p => some p
    | none => integer? cs

end Provisioning.Toml
