/-!
# Finite binary64 numbers

A finite binary64 number is a sign and a magnitude. Magnitudes are counted from zero upwards in the
order of the numbers they stand for: the first `2 ^ 52` are the multiples of `2 ^ -1074`, and each
further block of `2 ^ 52` covers one power of two. Arithmetic is exact on fractions and rounds once,
to the nearest magnitude, a tie going to the even one.
-/

namespace Provisioning

def Binary64.block : Nat := Nat.pow 2 52

/-- The first magnitude that is too large to be finite. -/
def Binary64.overflow : Nat := 0x7ff * Binary64.block

/-- A finite binary64 number. Zero has both signs. -/
structure Binary64 where
  negative : Bool
  magnitude : Nat
  deriving DecidableEq, Repr

/-- A fraction with a positive denominator, or zero over anything. -/
structure Fraction where
  num : Nat
  den : Nat
  deriving DecidableEq, Repr

namespace Fraction

/-- The natural number nearest to a fraction, a half going to the even neighbour. -/
def round (q : Fraction) : Nat :=
  let down := q.num / q.den
  let twice := 2 * (q.num % q.den)
  if twice < q.den then down
  else if twice = q.den then down + down % 2
  else down + 1

def scale (q : Fraction) : Int → Fraction
  | .ofNat k => ⟨q.num * Nat.pow 2 k, q.den⟩
  | .negSucc k => ⟨q.num, q.den * Nat.pow 2 (k + 1)⟩

/-- The exponent of the largest power of two that is not above a positive fraction. -/
def log2 (q : Fraction) : Int :=
  let guess : Int := (Nat.log2 q.num : Int) - (Nat.log2 q.den : Int)
  let shifted := q.scale (-guess)
  if shifted.den ≤ shifted.num then guess else guess - 1

def mul (a b : Fraction) : Fraction :=
  ⟨a.num * b.num, a.den * b.den⟩

def div (a b : Fraction) : Fraction :=
  ⟨a.num * b.den, a.den * b.num⟩

end Fraction

namespace Binary64

def toFraction (magnitude : Nat) : Fraction :=
  let power := magnitude / block
  if power = 0 then ⟨magnitude, Nat.pow 2 1074⟩
  else Fraction.scale ⟨block + magnitude % block, 1⟩ ((power : Int) - 1075)

/--
The magnitude nearest to a fraction. A result of `overflow` or more says that the fraction is too
large. Adding the rounded significand to the block's start carries into the next block by itself.
-/
def nearest (q : Fraction) : Nat :=
  if q.num = 0 then 0
  else
    let unit := max (q.log2 - 52) (-1074)
    (unit + 1074).toNat * block + (q.scale (-unit)).round

def nearest? (q : Fraction) : Option Nat :=
  let magnitude := nearest q
  if magnitude < overflow then some magnitude else none

def ofDecimal (digits : Nat) : Int → Fraction
  | .ofNat k => ⟨digits * Nat.pow 10 k, 1⟩
  | .negSucc k => ⟨digits, Nat.pow 10 (k + 1)⟩

/--
The magnitude nearest to `digits * 10 ^ exponent`, if it is finite. An exponent far outside the
range of the format is decided by the number of digits alone, so that no huge power is computed.
-/
def ofDecimal? (digits : Nat) (exponent : Int) : Option Nat :=
  let size : Int := ((Nat.log2 digits / 3 : Nat) : Int) + 1
  if digits = 0 then some 0
  else if exponent > 400 then none
  else if exponent + size < -400 then some 0
  else nearest? (ofDecimal digits exponent)

end Binary64

end Provisioning
