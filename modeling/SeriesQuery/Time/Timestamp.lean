/-
Timestamps.

A timestamp is a second counted from 1970-01-01T00:00:00Z and the nanoseconds since that
second began.  A leap second has no number of its own: it is the second before it, always
the last of a minute, with a thousand million nanoseconds more.
-/
import SeriesQuery.Time.Calendar

namespace SeriesQuery

/-- A point in time between the years -262143 and 262142, both included. -/
structure Timestamp where
  /-- The second, counted from 1970-01-01T00:00:00Z. -/
  seconds : Int
  /-- The nanoseconds since the second began. -/
  nanos : Nat
  /-- The calendar has a year for the second. -/
  seconds_range : -8334601228800 ≤ seconds ∧ seconds ≤ 8210266876799
  /-- No second has another two behind it. -/
  nanos_lt : nanos < 2000000000
  /-- Only the last second of a minute may have a leap second behind it. -/
  leap : 1000000000 ≤ nanos → seconds % 60 = 59
  deriving DecidableEq

namespace Timestamp

example : Date.ofDayNumber (-8334601228800 / 86400) = ⟨-262143, 1, 1⟩ := by decide

example : Date.ofDayNumber (8210266876799 / 86400) = ⟨262142, 12, 31⟩ := by decide

/-- The timestamp of so many seconds and nanoseconds, if it is one. -/
def ofUnix? (seconds : Int) (nanos : Nat) : Option Timestamp :=
  if h : (-8334601228800 ≤ seconds ∧ seconds ≤ 8210266876799) ∧ nanos < 2000000000 ∧
      (1000000000 ≤ nanos → seconds % 60 = 59) then
    some ⟨seconds, nanos, h.1, h.2.1, h.2.2⟩
  else none

@[ext] theorem ext {s t : Timestamp} (hs : s.seconds = t.seconds) (hn : s.nanos = t.nanos) :
    s = t := by
  cases s; cases t; simp_all

theorem ofUnix?_eq_some {seconds : Int} {nanos : Nat} {t : Timestamp}
    (h : ofUnix? seconds nanos = some t) : t.seconds = seconds ∧ t.nanos = nanos := by
  unfold ofUnix? at h
  split at h
  · cases h
    exact ⟨rfl, rfl⟩
  · cases h

/-- The timestamp at which clocks so many seconds ahead of UTC show the date and time. -/
def ofLocal? (date : Date) (clock : Clock) (ahead : Int) : Option Timestamp :=
  if date.isValid && clock.hour ≤ 23 && clock.minute ≤ 59 && clock.second ≤ 60 &&
      decide (ahead.natAbs < 86400) then
    let second := min clock.second 59
    let nanos := clock.nanos + (clock.second - second) * 1000000000
    let ofDay : Int := clock.hour * 3600 + clock.minute * 60 + second
    ofUnix? (date.dayNumber * 86400 + ofDay - ahead) nanos
  else none

/-- The date in UTC. -/
def date (t : Timestamp) : Date :=
  Date.ofDayNumber (t.seconds / 86400)

/-- The time of day in UTC. -/
def clock (t : Timestamp) : Clock :=
  let ofDay := (t.seconds % 86400).toNat
  ⟨ofDay / 3600, ofDay / 60 % 60, ofDay % 60 + t.nanos / 1000000000, t.nanos % 1000000000⟩

/-- The timestamp as date and time in UTC, to the second. -/
def text (t : Timestamp) : String :=
  t.date.text ++ "T" ++ padded 2 t.clock.hour ++ ":" ++ padded 2 t.clock.minute ++ ":" ++
    padded 2 t.clock.second ++ "Z"

end Timestamp
end SeriesQuery
