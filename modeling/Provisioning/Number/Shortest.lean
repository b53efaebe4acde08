import Provisioning.Number.Binary64

/-!
# Shortest decimals

The shortest decimal of a magnitude is the one with the fewest digits among those that round to it,
and of these the one nearest to it. A grid of decimals with a given number of digits has a point
that rounds to the magnitude only if one of the two points next to it does.
-/

namespace Provisioning

structure Decimal where
  digits : Nat
  exponent : Int
  deriving DecidableEq, Repr

namespace Decimal

def scale (q : Fraction) : Int → Fraction
  | .ofNat k => ⟨q.num * Nat.pow 10 k, q.den⟩
  | .negSucc k => ⟨q.num, q.den * Nat.pow 10 (k + 1)⟩

/-- The exponent of the leading digit of a positive fraction, found by trying from `guess` upwards. -/
def leading (q : Fraction) : Nat → Int → Int
  | 0, guess => guess
  | fuel + 1, guess =>
    let shifted := scale q (-(guess + 1))
    if shifted.den ≤ shifted.num then leading q fuel (guess + 1) else guess

def exponentOf (q : Fraction) : Int :=
  let bits := q.log2
  leading q 4 (bits * 30103 / 100000 - 2)

/--
The decimal with `n` digits that is nearest to the magnitude among the two beside it, if one of
them rounds to it.
-/
def onGrid? (magnitude : Nat) (q : Fraction) (n : Nat) (top : Int) : Option Decimal :=
  let unit := top - ((n : Int) - 1)
  let scaled := scale q (-unit)
  let down := scaled.num / scaled.den
  let reads (d : Nat) : Bool := Binary64.nearest (Binary64.ofDecimal d unit) = magnitude
  let below : Option Decimal := if reads down then some ⟨down, unit⟩ else none
  let above : Option Decimal := if reads (down + 1) then some ⟨down + 1, unit⟩ else none
  match below, above with
  | some a, some b =>
    let twice := 2 * (scaled.num % scaled.den)
    if twice < scaled.den then some a
    else if twice = scaled.den then (if down % 2 = 0 then some a else some b)
    else some b
  | some a, none => some a
  | none, some b => some b
  | none, none => none

/-- The first grid, from `n` digits upwards, that has a decimal which rounds to the magnitude. -/
def search (magnitude : Nat) (q : Fraction) (top : Int) : Nat → Nat → Decimal
  | 0, n => ⟨(scale q ((n : Int) - 1 - top)).round, top - ((n : Int) - 1)⟩
  | fuel + 1, n =>
    match onGrid? magnitude q n top with
    | some d => d
    | none => search magnitude q top fuel (n + 1)

def shortest (magnitude : Nat) : Decimal :=
  if magnitude = 0 then ⟨0, 0⟩
  else
    let q := Binary64.toFraction magnitude
    search magnitude q (exponentOf q) 17 1

def trim : Nat → Decimal → Decimal
  | 0, d => d
  | fuel + 1, d =>
    if d.digits ≠ 0 ∧ d.digits % 10 = 0 then trim fuel ⟨d.digits / 10, d.exponent + 1⟩ else d

end Decimal

end Provisioning
