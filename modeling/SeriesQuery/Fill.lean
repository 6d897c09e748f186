/-
Fill options.

What a SELECT puts into time windows without data: one of four keywords, or a number.  The
number is kept as the text it was given as, and must be a finite decimal numeral by the
time the statement is composed.
-/
import SeriesQuery.Error
import SeriesQuery.Floating.Numeral
import SeriesQuery.Text.Blank

namespace SeriesQuery

open Text

/-- What stands in a time window without data. -/
inductive Fill where
  | null
  | none
  | previous
  | linear
  | number (text : String)
  deriving DecidableEq, Repr

namespace Fill

/-- The option as it stands between the parentheses. -/
def text : Fill → String
  | null => "null"
  | none => "none"
  | previous => "previous"
  | linear => "linear"
  | number text => text

/-- The fill that a text names, blanks around it and the case of ASCII letters aside. -/
def ofText? (s : String) : Composed Fill :=
  let name := (trim s.toList).map Char.toLower
  if name = "null".toList then .ok null
  else if name = "none".toList then .ok none
  else if name = "previous".toList then .ok previous
  else if name = "linear".toList then .ok linear
  else if Numeral.isFiniteText name then .ok (number (String.ofList name))
  else .error (.invalidFill s)

/-- The option as text, unless it is a number that is no finite numeral. -/
def compile : Fill → Composed String
  | number text =>
    if Numeral.isFiniteText text.toList then .ok text else .error (.invalidFill text)
  | fill => .ok fill.text

end Fill
end SeriesQuery
