/-
The shortest decimal text of a number.

Every decimal in the rounding interval of a number reads back as that number.  The text
uses the coarsest decimal grid that has a point in the interval, and on it the point
nearest the number, the upper one of two equally near.  It is written out in full, without
an exponent and without a fraction of zero.
-/
import SeriesQuery.Floating.Format

namespace SeriesQuery

/-- The decimal number `digits * 10 ^ exponent`. -/
structure Decimal where
  digits : Nat
  exponent : Int
  deriving DecidableEq, Repr

namespace Magnitude

/-- How far below the number its rounding interval reaches, in quarter units of the last
    bit: half as far as above when the mantissa is a power of two. -/
def slackBelow (f : Format) (x : Magnitude) : Nat :=
  if x.mantissa = Nat.pow 2 (f.precision - 1) then 1 else 2

/-- The point of the grid of multiples of `10 ^ k` that stands for the number, if the grid
    has one in its rounding interval. -/
def onGrid? (f : Format) (x : Magnitude) (k : Int) : Option Decimal :=
  let e := x.exponent - 2
  -- quarter units, with the grid's step as the common measure
  let scale := Nat.pow 2 e.toNat * Nat.pow 10 (-k).toNat
  let step := Nat.pow 2 (-e).toNat * Nat.pow 10 k.toNat
  let value := 4 * x.mantissa * scale
  let below := x.slackBelow f * scale
  let above := 2 * scale
  let q := value / step
  let r := value % step
  let closed := x.mantissa % 2 = 0
  let lower := r < below ∨ (closed ∧ r = below)
  let upper := step < r + above ∨ (closed ∧ step = r + above)
  if upper ∧ (¬ lower ∨ step ≤ 2 * r) then some ⟨q + 1, k⟩
  else if lower then some ⟨q, k⟩
  else none

/-- The exponent of a power of ten above the number's rounding interval. -/
def decimalBound (x : Magnitude) : Int :=
  (toString x.num).length - (toString x.den).length + 2

/-- The shortest decimal that reads back as a positive number. -/
def shortest (f : Format) (x : Magnitude) : Decimal :=
  let top := x.decimalBound
  ((List.range (f.precision + 4)).findSome? fun (i : Nat) => x.onGrid? f (top - i)).getD ⟨0, 0⟩

end Magnitude

namespace Decimal

/-- The number written out in full, with a point only where digits follow it. -/
def positional (d : Decimal) : String :=
  let text := (toString d.digits).toList
  if 0 ≤ d.exponent then
    String.ofList (text ++ List.replicate d.exponent.toNat '0')
  else
    let places := (-d.exponent).toNat
    let padded := List.replicate (places + 1 - text.length) '0' ++ text
    let whole := padded.length - places
    String.ofList (padded.take whole ++ '.' :: padded.drop whole)

end Decimal

namespace Floating

/-- The datum as text: shortest digits, a sign on negative zero too, and words for the rest. -/
def text (f : Format) : Floating → String
  | nan => "NaN"
  | infinite negative => if negative then "-inf" else "inf"
  | finite negative x =>
    let digits := if x.mantissa = 0 then "0" else (x.shortest f).positional
    if negative then "-" ++ digits else digits

end Floating
end SeriesQuery
