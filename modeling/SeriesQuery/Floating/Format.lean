/-
Binary floating point, exactly.

A finite number is a whole mantissa times a power of two, so every question about it is a
question about natural numbers.  `Format.nearest?` rounds a fraction to the nearest number
of a format, a tie going to the even mantissa, and says when the fraction is too large.
-/

namespace SeriesQuery

/-- The interchange formats in use. -/
inductive Format where
  | binary32
  | binary64
  deriving DecidableEq, Repr

namespace Format

/-- The number of bits of a mantissa. -/
def precision : Format → Nat
  | binary32 => 24
  | binary64 => 53

/-- The exponent of the smallest numbers: theirs is the unit no number is finer than. -/
def minExponent : Format → Int
  | binary32 => -149
  | binary64 => -1074

/-- The exponent of the largest numbers. -/
def maxExponent : Format → Int
  | binary32 => 104
  | binary64 => 971

end Format

/-- The number `mantissa * 2 ^ exponent`. -/
structure Magnitude where
  mantissa : Nat
  exponent : Int
  deriving DecidableEq, Repr

namespace Magnitude

/-- The numerator of the number as a fraction. -/
def num (x : Magnitude) : Nat :=
  x.mantissa * Nat.pow 2 x.exponent.toNat

/-- The denominator of the number as a fraction. -/
def den (x : Magnitude) : Nat :=
  Nat.pow 2 (-x.exponent).toNat

end Magnitude

/-- A floating-point datum: a signed magnitude, an infinity, or no number. -/
inductive Floating where
  | nan
  | infinite (negative : Bool)
  | finite (negative : Bool) (magnitude : Magnitude)
  deriving DecidableEq, Repr

/-- Whether the datum is a number. -/
def Floating.isFinite : Floating → Bool
  | finite .. => true
  | _ => false

/-! ### Rounding -/

/-- The whole number nearest `num / den`; a tie goes to the even one. -/
def roundHalfEven (num den : Nat) : Nat :=
  let q := num / den
  let r := num % den
  if 2 * r < den then q else if den < 2 * r then q + 1 else q + q % 2

/-- The largest `l` with `2 ^ l ≤ num / den`, for a positive fraction. -/
def floorLog2 (num den : Nat) : Int :=
  let l : Int := (num.log2 : Int) - den.log2
  if den * Nat.pow 2 l.toNat ≤ num * Nat.pow 2 (-l).toNat then l else l - 1

namespace Format

/-- The number of the format nearest `num / den`, unless it exceeds them all. -/
def nearest? (f : Format) (num den : Nat) : Option Magnitude :=
  if num = 0 then some ⟨0, f.minExponent⟩
  else
    let e := max (floorLog2 num den - f.precision + 1) f.minExponent
    let m := roundHalfEven (num * Nat.pow 2 (-e).toNat) (den * Nat.pow 2 e.toNat)
    let x : Magnitude :=
      if m = Nat.pow 2 f.precision then ⟨Nat.pow 2 (f.precision - 1), e + 1⟩ else ⟨m, e⟩
    if x.exponent ≤ f.maxExponent then some x else none

/-- The datum nearest the signed fraction: an infinity when it exceeds all numbers. -/
def nearest (f : Format) (negative : Bool) (num den : Nat) : Floating :=
  match f.nearest? num den with
  | some x => .finite negative x
  | none => .infinite negative

/-- The datum nearest a whole number. -/
def ofInt (f : Format) (n : Int) : Floating :=
  f.nearest (n < 0) n.natAbs 1

end Format
end SeriesQuery
