/-
Digits of fixed width.

The fields of a date or a time have a fixed number of decimal digits, zeros in front
included; a fraction of a second is read to the nanosecond.
-/
import SeriesQuery.Floating.Numeral

namespace SeriesQuery

open Text

/-- The number with zeros in front up to so many places. -/
def padded (places : Nat) (n : Nat) : String :=
  let digits := (toString n).toList
  String.ofList (List.replicate (places - digits.length) '0' ++ digits)

/-- Two decimal digits. -/
def twoDigits : Reader Nat := do
  let a ← Reader.satisfying Char.isDigit
  let b ← Reader.satisfying Char.isDigit
  return Numeral.valueOf [a, b]

/-- The nanoseconds that the digits of a fraction of a second stand for; those past the ninth
    are dropped. -/
def nanosOf (fraction : List Char) : Nat :=
  let kept := fraction.take 9
  Numeral.valueOf kept * Nat.pow 10 (9 - kept.length)

end SeriesQuery
