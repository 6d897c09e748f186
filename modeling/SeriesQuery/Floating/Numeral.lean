/-
Decimal numerals.

A numeral is an optional sign, digits with an optional point, at least one digit in all,
and an optional exponent with at least one digit.  It names an exact number; `toFloating`
rounds that number to a floating-point format.
-/
import SeriesQuery.Floating.Format
import SeriesQuery.Text.Reader

namespace SeriesQuery

open Text

/-- A signed decimal number, `digits * 10 ^ exponent`; zero has a sign too. -/
structure Numeral where
  negative : Bool
  digits : Nat
  exponent : Int
  deriving DecidableEq, Repr

namespace Numeral

/-- An optional sign; tells whether it is a minus. -/
def sign : Reader Bool
  | '-' :: r => some (true, r)
  | '+' :: r => some (false, r)
  | r => some (false, r)

/-- The value of a run of decimal digits. -/
def valueOf (ds : List Char) : Nat :=
  Nat.ofDigitChars 10 ds 0

/-- A whole number with an optional sign. -/
def signedDigits : Reader Int := do
  let negative ← sign
  let ds ← Reader.span1 Char.isDigit
  let n : Int := valueOf ds
  pure (if negative then -n else n)

/-- An exponent, `0` where there is none. -/
def exponentPart : Reader Int
  | 'e' :: r => signedDigits r
  | 'E' :: r => signedDigits r
  | r => some (0, r)

/-- The digits after a point; none where there is no point. -/
def fractionPart : Reader (List Char)
  | '.' :: r => Reader.span Char.isDigit r
  | r => some ([], r)

/-- Takes a numeral off the front of a text. -/
def read : Reader Numeral := do
  let negative ← sign
  let whole ← Reader.span Char.isDigit
  let fraction ← fractionPart
  if whole.isEmpty && fraction.isEmpty then failure
  let exponent ← exponentPart
  pure ⟨negative, valueOf (whole ++ fraction), exponent - fraction.length⟩

/-- The numeral that the whole text is. -/
def ofText? (s : List Char) : Option Numeral :=
  Reader.whole read s

/-- The power of ten just above the number. -/
def size (n : Numeral) : Int :=
  (toString n.digits).length + n.exponent

/-- The datum nearest the number.  A number of more than 400 places exceeds every format
    and one that starts after 400 zeros vanishes in every format, so neither's power of ten
    is ever built. -/
def toFloating (f : Format) (n : Numeral) : Floating :=
  if n.digits = 0 then .finite n.negative ⟨0, f.minExponent⟩
  else if 400 < n.size then .infinite n.negative
  else if n.size < -400 then .finite n.negative ⟨0, f.minExponent⟩
  else
    f.nearest n.negative (n.digits * Nat.pow 10 n.exponent.toNat)
      (Nat.pow 10 (-n.exponent).toNat)

/-- Whether the text is a numeral whose nearest binary64 datum is a number. -/
def isFiniteText (s : List Char) : Bool :=
  match ofText? s with
  | some n => (n.toFloating .binary64).isFinite
  | none => false

end Numeral
end SeriesQuery
