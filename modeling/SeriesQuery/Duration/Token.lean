/-
Duration tokens.

A token is one or more groups, each a run of decimal digits directly followed by a unit:
`10m`, `1h30m`, `250ms`.  It stands for the sum of its groups.  The canonical token of a
duration is a single group, in the largest unit up to the hour that divides it.
-/
import SeriesQuery.Duration.Count
import SeriesQuery.Error
import SeriesQuery.Text.Blank
import SeriesQuery.Text.Reader

namespace SeriesQuery

open Text

/-! ### Reading -/

/-- Takes a unit off the front of a text.  Microseconds may be written `u` or `µ`. -/
def TimeUnit.read? : Reader TimeUnit
  | 'n' :: 's' :: r => some (nanosecond, r)
  | 'm' :: 's' :: r => some (millisecond, r)
  | 'u' :: r => some (microsecond, r)
  | 'µ' :: r => some (microsecond, r)
  | 's' :: r => some (second, r)
  | 'm' :: r => some (minute, r)
  | 'h' :: r => some (hour, r)
  | 'd' :: r => some (day, r)
  | 'w' :: r => some (week, r)
  | _ => none

namespace Duration

/-- Takes a group off the front of a text: digits directly followed by a unit.  Refuses a group
    that no count can hold. -/
def group : Reader Count := do
  let digits ← Reader.span1 Char.isDigit
  let number ← Count.ofNat? (Nat.ofDigitChars 10 digits 0)
  let unit ← TimeUnit.read?
  number.scale? unit

/-- The sum of the groups that make up the whole text, at least one of them. -/
def total? (s : List Char) : Option Count :=
  match Reader.whole (Reader.repeated group) s with
  | none | some [] => none
  | some counts => some (counts.foldl Count.add .zero)

/-- The duration that a token stands for.  Blanks around the token do not count. -/
def ofToken? (text : String) : Option Duration := do
  let count ← total? (trim text.toList)
  ofNanos? count.toNat

/-- The duration that a token stands for, or why it stands for none. -/
def parse (token : String) : Composed Duration :=
  match ofToken? token with
  | some d => .ok d
  | none => .error (.invalidDuration token)

/-! ### Writing -/

/-- The units of canonical tokens, largest first. -/
def canonicalUnits : List TimeUnit :=
  [.hour, .minute, .second, .millisecond, .microsecond, .nanosecond]

/-- The canonical token of the duration. -/
def token (d : Duration) : String :=
  if d.nanos = 0 then "0s"
  else
    let u := (canonicalUnits.find? fun u => d.nanos % u.nanos == 0).getD .nanosecond
    toString (d.nanos / u.nanos) ++ u.symbol

end Duration
end SeriesQuery
