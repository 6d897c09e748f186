/-
Values that conditions compare with.

Text is put between single quotes as it stands: a quote inside it ends the literal early.
Whole numbers and durations are written bare, timestamps between single quotes.
-/
import SeriesQuery.Duration.Token
import SeriesQuery.Floating.Shortest
import SeriesQuery.Time.Timestamp

namespace SeriesQuery

/-- A value that a condition compares with. -/
inductive Value where
  | text (s : String)
  | int (n : Int)
  | uint (n : Nat)
  | duration (d : Duration)
  | timestamp (t : Timestamp)
  /-- The text of a value of any other kind. -/
  | other (s : String)
  deriving DecidableEq

namespace Value

/-- The value that a floating-point datum is. -/
def ofFloating (f : Format) (x : Floating) : Value :=
  other (x.text f)

/-- The value that a truth value is. -/
def ofBool (b : Bool) : Value :=
  other (if b then "true" else "false")

/-- The value in plain words, without quotes. -/
def plain : Value → String
  | text s | other s => s
  | int n => toString n
  | uint n => toString n
  | duration d => d.token
  | timestamp t => t.text

/-- Whether the value stands between single quotes. -/
def isQuoted : Value → Bool
  | text _ | timestamp _ | other _ => true
  | int _ | uint _ | duration _ => false

/-- The value as a literal of the query language. -/
def literal (v : Value) : String :=
  if v.isQuoted then "'" ++ v.plain ++ "'" else v.plain

end Value
end SeriesQuery
