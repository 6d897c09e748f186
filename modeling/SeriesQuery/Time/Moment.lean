/-
Date-times as configuration files write them.

A moment is a date, a time of day or both, and, with both, an offset from UTC.  Only one
that has all three is a point in time.
-/
import SeriesQuery.Error
import SeriesQuery.Time.Timestamp

namespace SeriesQuery

open Text

/-- The offset of local clocks from UTC: `Z`, or minutes ahead. -/
inductive Offset where
  | utc
  | minutes (ahead : Int)
  deriving DecidableEq, Repr

/-- The offset in seconds ahead of UTC. -/
def Offset.seconds : Offset → Int
  | utc => 0
  | minutes ahead => ahead * 60

/-- A date, a time of day and an offset, as far as they are given. -/
structure Moment where
  date : Option Date
  time : Option Clock
  offset : Option Offset
  deriving DecidableEq, Repr

/-! ### Writing -/

/-- The time with its fraction, which ends in no zero. -/
def Clock.text (c : Clock) : String :=
  let whole := padded 2 c.hour ++ ":" ++ padded 2 c.minute ++ ":" ++ padded 2 c.second
  if c.nanos = 0 then whole
  else
    let digits := (padded 9 c.nanos).toList
    whole ++ "." ++ String.ofList (digits.reverse.dropWhile (· == '0')).reverse

/-- The offset as `Z`, or as a sign, hours and minutes. -/
def Offset.text : Offset → String
  | utc => "Z"
  | minutes ahead =>
    (if ahead < 0 then "-" else "+") ++ padded 2 (ahead.natAbs / 60) ++ ":" ++
      padded 2 (ahead.natAbs % 60)

namespace Moment

/-- The parts that are given, a `T` between date and time. -/
def text (m : Moment) : String :=
  let date := m.date.elim "" Date.text
  let mark := if m.date.isSome && m.time.isSome then "T" else ""
  date ++ mark ++ m.time.elim "" Clock.text ++ m.offset.elim "" Offset.text

/-! ### Reading -/

/-- Which hours and offsets are read. -/
inductive Strictness where
  /-- Hours to 23, also in the offset, and minutes to 59. -/
  | strict
  /-- Hour 24 as well, and offsets up to a whole day however they are split. -/
  | lax
  deriving DecidableEq, Repr

/-- Four digits, a hyphen, two digits, a hyphen, two digits: a date of the calendar. -/
def readDate : Reader Date := do
  let century ← twoDigits
  let year ← twoDigits
  Reader.char '-'
  let month ← twoDigits
  Reader.char '-'
  let day ← twoDigits
  let date : Date := ⟨century * 100 + year, month, day⟩
  if date.isValid then return date else failure

/-- The nanoseconds of a fraction; `0` where no point with digits follows. -/
def readFraction : Reader Nat := do
  let ds ← Reader.optional (do Reader.char '.'; Reader.span1 Char.isDigit)
  return ds.elim 0 nanosOf

/-- Two digits each of hour, minute and second, and an optional fraction. -/
def readClock (s : Strictness) : Reader Clock := do
  let hour ← twoDigits
  Reader.char ':'
  let minute ← twoDigits
  Reader.char ':'
  let second ← twoDigits
  let nanos ← readFraction
  let lastHour := match s with | .strict => 23 | .lax => 24
  if hour ≤ lastHour ∧ minute ≤ 59 ∧ second ≤ 60 then return ⟨hour, minute, second, nanos⟩
  else failure

/-- `Z`, or a sign and two digits each of hours and minutes. -/
def readOffset (s : Strictness) : Reader Offset := do
  let c ← Reader.satisfying fun c => c == 'Z' || c == 'z' || c == '+' || c == '-'
  if c == 'Z' || c == 'z' then return .utc
  let hours ← twoDigits
  Reader.char ':'
  let minutes ← twoDigits
  let fits := match s with
    | .strict => decide (hours ≤ 23 ∧ minutes ≤ 59)
    | .lax => decide (hours * 60 + minutes ≤ 24 * 60)
  let size : Int := hours * 60 + minutes
  if fits then return .minutes (if c == '-' then -size else size) else failure

/-- Takes a moment off the front of a text. -/
def read (s : Strictness) : Reader Moment :=
  (do
    let date ← readDate
    let timed ← Reader.optional do
      let _ ← Reader.satisfying fun c => c == 'T' || c == 't' || c == ' '
      let time ← readClock s
      let offset ← Reader.optional (readOffset s)
      return (time, offset)
    match timed with
    | some (time, offset) => return ⟨some date, some time, offset⟩
    | none => return ⟨some date, none, none⟩)
  <|> (do
    let time ← readClock s
    return ⟨none, some time, none⟩)

/-- The moment that the whole text is. -/
def ofText? (text : String) : Option Moment :=
  Reader.whole (read .lax) text.toList

/-! ### As a point in time -/

/-- The timestamp that the moment is.  A time that no clock shows counts before a missing
    offset, and a missing date or time before either. -/
def timestamp (m : Moment) : Except MomentError Timestamp :=
  match m.date, m.time with
  | some date, some time =>
    if 23 < time.hour then .error .outOfRange
    else
      match m.offset with
      | none => .error .incomplete
      | some offset =>
        match Timestamp.ofLocal? date time offset.seconds with
        | some t => .ok t
        | none => .error .outOfRange
  | _, _ => .error .incomplete

end Moment
end SeriesQuery
