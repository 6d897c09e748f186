/-
Conditions.

A condition is a text with places for values, each a question mark.  A text without places
is shorthand when it comes with a value: a name, or a name and an operator, for the value
to be compared with.  Without places and without values it is taken as it stands.
-/
import SeriesQuery.Error
import SeriesQuery.Identifier
import SeriesQuery.Text.Blank
import SeriesQuery.Value

namespace SeriesQuery

open Text

/-- A condition as it is given: its text and the values for its places. -/
structure Condition where
  text : String
  values : List Value
  deriving DecidableEq

namespace Condition

/-- The character that marks a place. -/
def placeholder : Char := '?'

/-- The number of places in the text. -/
def places (c : Condition) : Nat :=
  c.text.toList.count placeholder

/-- The words of the text. -/
def words (c : Condition) : List String :=
  (Text.words c.text.toList).map String.ofList

/-- The text that compares a name with one value. -/
def comparison (name operator : String) : String :=
  Identifier.quote name ++ " " ++ operator ++ " " ++ String.singleton placeholder

/-- The text with a place for each value, or why there is none. -/
def explicitText (c : Condition) : Composed String :=
  if 0 < c.places then
    if c.places = c.values.length then .ok c.text
    else .error (.placeholderMismatch c.places c.values.length)
  else if c.values.isEmpty then .ok c.text
  else
    match c.words with
    | [] => .error .emptyCondition
    | [name] =>
      if c.values.length = 1 then .ok (comparison name "=") else .error .expectedSingleValue
    | [name, operator] =>
      if c.values.length = 1 then .ok (comparison name operator) else .error .expectedSingleValue
    | _ => .error (.unsupportedExpression c.text)

/-- The text with the literals of the values in its places, in order: cut at its places, each
    piece but the first behind the literal of its value. -/
def substitute (text : List Char) (values : List Value) : List Char :=
  match text.splitOn placeholder with
  | [] => []
  | first :: rest =>
    first ++ (rest.zip values).flatMap fun (piece, v) => v.literal.toList ++ piece

/-- The condition as it stands in a statement. -/
def compile (c : Condition) : Composed String := do
  let text ← c.explicitText
  return String.ofList (substitute text.toList c.values)

end Condition

end SeriesQuery
