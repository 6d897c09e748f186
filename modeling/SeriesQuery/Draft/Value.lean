/-
Drafts of values.

A value is a number, a truth value or a text, or a table that says what a text means:
`duration` for a duration token, `time` for a timestamp.  A TOML date-time arrives as a
table of its own under a reserved key.
-/
import SeriesQuery.Document.Moment
import SeriesQuery.Record
import SeriesQuery.Time.Lenient
import SeriesQuery.Value

namespace SeriesQuery

/-- The value of a moment, which has to be a point in time. -/
def Moment.value (m : Moment) : Composed Value :=
  match m.timestamp with
  | .ok t => .ok (.timestamp t)
  | .error reason => .error (.invalidMoment m.text reason)

/-- A value as a file gives it. -/
inductive ValueDraft where
  | int (n : Int)
  | uint (n : Nat)
  | float (x : Floating)
  | bool (b : Bool)
  | text (s : String)
  | duration (token : String)
  | time (t : Timestamp)
  | moment (m : Moment)

namespace ValueDraft

/-- The value that a table gives.  It is the first of a duration, a timestamp as text and a
    TOML date-time that the table fits; other keys do not count. -/
def ofMembers? (members : List (String × Document)) : Option ValueDraft :=
  let field (key : String) {α : Type} (read : Document → Option α) : Option α := do
    (← Layout.slot? ⟨[key], false⟩ (.keyed members) key).required read
  (duration <$> field "duration" Document.text?)
  <|> (time <$> field "time" fun d => d.text? >>= Timestamp.ofText?)
  <|> (moment <$> field "time" Moment.ofDocument?)

/-- The value that a document gives.  An integer is signed if 64 bits hold it so. -/
def ofDocument? : Document → Option ValueDraft
  | .integer n =>
    if Document.isSigned64 n then some (int n)
    else if 0 ≤ n ∧ n < UInt64.size then some (uint n.toNat)
    else some (float (Format.binary64.ofInt n))
  | .float x => some (float x)
  | .bool b => some (bool b)
  | .text s => some (text s)
  | .table members => ofMembers? members
  | .null | .list _ => none

/-- The value that is meant. -/
def value : ValueDraft → Composed Value
  | int n => .ok (.int n)
  | uint n => .ok (.uint n)
  | float x => .ok (.ofFloating .binary64 x)
  | bool b => .ok (.ofBool b)
  | text s => .ok (.text s)
  | duration token => (Duration.parse token).map Value.duration
  | time t => .ok (.timestamp t)
  | moment m => m.value

end ValueDraft
end SeriesQuery
