import Provisioning.Tree

/-!
# Numbers in JSON

A number without fraction and exponent is whole as long as it fits in 64 bits, with or without a
sign; minus zero and everything else is a binary64 number. A binary64 number is read in two
roundings: its leading digits, as many as fit in 64 bits, are rounded first, and the result is then
multiplied or divided by a rounded power of ten.
-/

namespace Provisioning.Json

def digitValue (c : Char) : Nat :=
  c.toNat - '0'.toNat

def spanDigits (cs : List Char) : List Char × List Char :=
  (cs.takeWhile Char.isDigit, cs.dropWhile Char.isDigit)

def maxSignificand : Nat := Nat.pow 2 64 - 1

/-- Appends digits to a significand while it stays within 64 bits; the digits left over follow. -/
def absorb : Nat → List Char → Nat × List Char
  | significand, [] => (significand, [])
  | significand, d :: rest =>
    let next := significand * 10 + digitValue d
    if next ≤ maxSignificand then absorb next rest else (significand, d :: rest)

def maxPower : Nat := 308

/-- The magnitude nearest to a power of ten up to `maxPower`. -/
def powerOfTen (k : Nat) : Nat :=
  Binary64.nearest ⟨Nat.pow 10 k, 1⟩

/-- Multiplies a magnitude by a power of ten, or divides it by one, rounding once more. -/
def applyPower (magnitude : Nat) : Int → Nat
  | .ofNat k =>
    Binary64.nearest ((Binary64.toFraction magnitude).mul (Binary64.toFraction (powerOfTen k)))
  | .negSucc k =>
    Binary64.nearest ((Binary64.toFraction magnitude).div (Binary64.toFraction (powerOfTen (k + 1))))

/--
The magnitude of `magnitude * 10 ^ exponent`, or nothing if it is not finite. A negative exponent out
of reach is taken in steps, which end at zero at the latest with the third.
-/
def scaled? : Nat → Nat → Int → Option Nat
  | 0, _, _ => some 0
  | fuel + 1, magnitude, exponent =>
    if exponent.natAbs ≤ maxPower then
      let result := applyPower magnitude exponent
      if result < Binary64.overflow then some result else none
    else if magnitude = 0 then some 0
    else if exponent ≥ 0 then none
    else scaled? fuel (applyPower magnitude (-(maxPower : Int))) (exponent + maxPower)

def real? (negative : Bool) (significand : Nat) (exponent : Int) : Option Number :=
  (scaled? 4 (Binary64.nearest ⟨significand, 1⟩) exponent).map fun m => .real ⟨negative, m⟩

/-- The number with the given sign and significand, whole if it fits in 64 bits. -/
def whole (negative : Bool) (significand : Nat) : Number :=
  if !negative then .whole significand
  else if 0 < significand ∧ significand ≤ Nat.pow 2 63 then .whole (-(significand : Int))
  else .real ⟨true, Binary64.nearest ⟨significand, 1⟩⟩

def exponent? (cs : List Char) : Option (Int × List Char) :=
  let (negative, cs) :=
    match cs with
    | '-' :: r => (true, r)
    | '+' :: r => (false, r)
    | r => (false, r)
  let (digits, rest) := spanDigits cs
  if digits.isEmpty then none
  else
    let n := digits.foldl (fun n d => n * 10 + digitValue d) 0
    some (if negative then -(n : Int) else n, rest)

def finish? (negative : Bool) (significand : Nat) (shift : Int) (cs : List Char) :
    Option (Number × List Char) :=
  match cs with
  | c :: r =>
    if c = 'e' ∨ c = 'E' then
      (exponent? r).bind fun e => (real? negative significand (shift + e.1)).map (·, e.2)
    else (real? negative significand shift).map (·, cs)
  | [] => (real? negative significand shift).map (·, cs)

def tail? (negative : Bool) (significand : Nat) (dropped : Nat) (cs : List Char) :
    Option (Number × List Char) :=
  match cs with
  | '.' :: r =>
    let (digits, rest) := spanDigits r
    if digits.isEmpty then none
    else
      let (significand, left) := absorb significand digits
      finish? negative significand ((dropped : Int) - (digits.length - left.length : Nat)) rest
  | 'e' :: _ => finish? negative significand dropped cs
  | 'E' :: _ => finish? negative significand dropped cs
  | _ =>
    if dropped = 0 then some (whole negative significand, cs)
    else finish? negative significand dropped cs

def unsigned? (negative : Bool) (cs : List Char) : Option (Number × List Char) :=
  let (digits, rest) := spanDigits cs
  match digits with
  | [] => none
  | '0' :: _ :: _ => none
  | _ =>
    let (significand, left) := absorb 0 digits
    tail? negative significand left.length rest

def number? : List Char → Option (Number × List Char)
  | '-' :: rest => unsigned? true rest
  | cs => unsigned? false cs

end Provisioning.Json
