import Provisioning.Number.Shortest

/-!
# The text of a number

Whole numbers are written in decimal. A binary64 number is written with its shortest digits: in
positional notation while its leading digit stands between the fifth place after the point and the
sixteenth before it, and always with a fraction; otherwise with one digit before the point and a
signed exponent.
-/

namespace Provisioning

namespace Decimal

/-- The notation of binary64 numbers: which exponents of the leading digit are positional. -/
structure Style where
  lowest : Int
  highest : Int

/-- Positional from `0.00001` up to below `1e+16`. -/
def Style.standard : Style := ⟨-5, 15⟩

def digitsOf (n : Nat) : List Char :=
  Nat.toDigits 10 n

/-- Digits and an exponent in positional notation, with at least one digit after the point. -/
def positional (ds : List Char) (top : Int) : List Char :=
  if top < 0 then '0' :: '.' :: (List.replicate (-top - 1).toNat '0' ++ ds)
  else
    let before := top.toNat + 1
    let whole := ds.take before ++ List.replicate (before - ds.length) '0'
    let fraction := ds.drop before
    whole ++ '.' :: (if fraction.isEmpty then ['0'] else fraction)

def scientific (ds : List Char) (top : Int) : List Char :=
  let fraction := ds.drop 1
  ds.take 1 ++ (if fraction.isEmpty then [] else '.' :: fraction) ++
    ('e' :: (if top < 0 then '-' else '+') :: digitsOf top.natAbs)

def layout (style : Style) (d : Decimal) : List Char :=
  let d := trim 20 d
  let ds := digitsOf d.digits
  let top := d.exponent + (ds.length : Int) - 1
  if style.lowest ≤ top ∧ top ≤ style.highest then positional ds top else scientific ds top

end Decimal

def Binary64.text (x : Binary64) : List Char :=
  (if x.negative then ['-'] else []) ++
    (if x.magnitude = 0 then ['0', '.', '0']
      else Decimal.layout .standard (Decimal.shortest x.magnitude))

def wholeText (i : Int) : List Char :=
  (if i < 0 then ['-'] else []) ++ Decimal.digitsOf i.natAbs

end Provisioning
