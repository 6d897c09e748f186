/-
The point in time that clocks show.

A clock that is ahead of UTC shows minutes which UTC reaches later.  Taking the offset off the time
of day leaves a number of minutes that may lie before midnight or behind the next, but never a
whole day further, so the date in UTC is the local one, the day before or the day after.  The
seconds are the same everywhere.

Printed in UTC, a timestamp loses its fraction and nothing else: read again, the text stands for
the whole second that the timestamp lies in, and a leap second stays one.
-/
import SeriesQuery.Proofs.Time.Lenient

namespace SeriesQuery

/-! ### Local time and UTC -/

namespace Date

theorem dayNumber_bounds {d : Date} (h : d.isValid = true) :
    daysBeforeYear d.marchYear + firstMarch ≤ d.dayNumber ∧
      d.dayNumber < daysBeforeYear (d.marchYear + 1) + firstMarch := by
  obtain ⟨⟨hle, hlt⟩, -⟩ := dayOfYear_spec h
  rw [dayNumber_eq]
  unfold dayOfYear at hle hlt
  omega

/-- Dates with four digits are far from where the timestamps end. -/
theorem HasFourDigits.dayNumber_bounds {d : Date} (h : d.HasFourDigits) :
    -720000 ≤ d.dayNumber ∧ d.dayNumber ≤ 3000000 := by
  obtain ⟨hle, hlt⟩ := Date.dayNumber_bounds h.valid
  have hnonneg := h.year_nonneg
  have hyear := h.year_le
  unfold marchYear daysBeforeYear firstMarch at *
  split at hle <;> split at hlt <;> omega

/-- The date in UTC, so many minutes after midnight of the date. -/
def carried (d : Date) (minutes : Int) : Date :=
  if minutes < 0 then d.previous else if minutes < 1440 then d else d.next

theorem ofDayNumber_carried {d : Date} (hd : d.isValid = true) {minutes : Int}
    (hlow : -1440 ≤ minutes) (hhigh : minutes < 2880) :
    ofDayNumber (d.dayNumber + minutes / 1440) = d.carried minutes := by
  unfold carried
  split
  · rw [show d.dayNumber + minutes / 1440 = d.previous.dayNumber by
      rw [dayNumber_previous hd]; omega]
    exact ofDayNumber_dayNumber (isValid_previous hd)
  · split
    · rw [show d.dayNumber + minutes / 1440 = d.dayNumber by omega]
      exact ofDayNumber_dayNumber hd
    · obtain ⟨hvalid, hnumber⟩ := next_spec hd
      rw [show d.dayNumber + minutes / 1440 = d.next.dayNumber by rw [hnumber]; omega]
      exact ofDayNumber_dayNumber hvalid

end Date

/-- The minutes from midnight of the local date to what clocks in UTC show. -/
def Clock.Spelling.utcMinutes (c : Clock.Spelling) (o : Offset.Spelling) : Int :=
  c.hour * 60 + c.minute - o.ahead

theorem Clock.Spelling.utcMinutes_bounds (c : Clock.Spelling) (o : Offset.Spelling) :
    -1440 ≤ c.utcMinutes o ∧ c.utcMinutes o < 2880 := by
  have hhour := c.hour_le
  have hminute := c.minute_le
  have hahead := o.natAbs_ahead_lt
  unfold Clock.Spelling.utcMinutes
  omega

namespace Timestamp

/-- The date and the time of day in UTC to the second, when clocks with the offset show the local
    ones. -/
def utcText (d : Date) (c : Clock.Spelling) (o : Offset.Spelling) : String :=
  (d.carried (c.utcMinutes o)).text ++ "T" ++ padded 2 (c.utcMinutes o % 1440 / 60).toNat ++ ":" ++
    padded 2 (c.utcMinutes o % 60).toNat ++ ":" ++ padded 2 c.second ++ "Z"

/-- What clocks show is a number of seconds, if the calendar has a year for it. -/
theorem ofLocal?_spelled {d : Date} (hd : d.isValid = true) (c : Clock.Spelling)
    (o : Offset.Spelling) : ofLocal? d c.clock (o.ahead * 60) =
      ofUnix? (d.dayNumber * 86400 + c.utcMinutes o * 60 + min c.second 59)
        (c.clock.nanos + (c.second - min c.second 59) * 1000000000) := by
  have hhour := c.hour_le
  have hminute := c.minute_le
  have hsecond := c.second_le
  have hahead := o.natAbs_ahead_lt
  have hshown : (d.isValid && decide (c.clock.hour ≤ 23) && decide (c.clock.minute ≤ 59) &&
      decide (c.clock.second ≤ 60) && decide ((o.ahead * 60).natAbs < 86400)) = true := by
    simp only [Bool.and_eq_true, decide_eq_true_eq]
    exact ⟨⟨⟨⟨hd, hhour⟩, hminute⟩, hsecond⟩, by omega⟩
  unfold ofLocal?
  rw [if_pos hshown]
  refine congrArg (ofUnix? · _) ?_
  show d.dayNumber * 86400 + (c.hour * 3600 + c.minute * 60 + (min c.second 59 : Nat) : Int) -
    o.ahead * 60 = _
  unfold Clock.Spelling.utcMinutes
  push_cast
  omega

/-- **What clocks show is printed as the date and time of day in UTC**: the offset is taken off,
    carried over into the date, and the fraction is dropped. -/
theorem text_of_ofLocal? {d : Date} (hd : d.isValid = true) {c : Clock.Spelling}
    {o : Offset.Spelling} {t : Timestamp} (h : ofLocal? d c.clock (o.ahead * 60) = some t) :
    t.text = utcText d c o := by
  rw [ofLocal?_spelled hd] at h
  obtain ⟨hseconds, hnanos⟩ := ofUnix?_eq_some h
  obtain ⟨hlow, hhigh⟩ := c.utcMinutes_bounds o
  have hfraction := c.nanos_clock_lt
  have hsecond := c.second_le
  have hdate : t.date = d.carried (c.utcMinutes o) := by
    unfold date
    rw [← Date.ofDayNumber_carried hd hlow hhigh, hseconds]
    congr 1
    omega
  have hclock : t.clock = ⟨(c.utcMinutes o % 1440 / 60).toNat, (c.utcMinutes o % 60).toNat,
      c.second, t.nanos % 1000000000⟩ := by
    unfold clock
    simp only [Clock.mk.injEq, and_true]
    rw [hseconds, hnanos]
    generalize c.utcMinutes o = minutes at *
    omega
  unfold text utcText
  rw [hdate, hclock]

/-- With a year of four digits there is such a point in time. -/
theorem exists_ofLocal? {d : Date} (hd : d.HasFourDigits) (c : Clock.Spelling)
    (o : Offset.Spelling) : ∃ t, ofLocal? d c.clock (o.ahead * 60) = some t := by
  obtain ⟨hfirst, hlast⟩ := hd.dayNumber_bounds
  obtain ⟨hlow, hhigh⟩ := c.utcMinutes_bounds o
  have hfraction := c.nanos_clock_lt
  have hsecond := c.second_le
  rw [ofLocal?_spelled hd.valid]
  unfold ofUnix?
  rw [dif_pos]
  · exact ⟨_, rfl⟩
  · generalize c.utcMinutes o = minutes at *
    omega

/-! ### Reading what is printed -/

/-- The second that the timestamp lies in, a leap second included. -/
def wholeSecond (t : Timestamp) : Timestamp where
  seconds := t.seconds
  nanos := t.nanos / 1000000000 * 1000000000
  seconds_range := t.seconds_range
  nanos_lt := by
    have h := t.nanos_lt
    omega
  leap h := t.leap (by omega)

theorem text_wholeSecond (t : Timestamp) : t.wholeSecond.text = t.text := by
  have hsecond : t.nanos / 1000000000 * 1000000000 / 1000000000 = t.nanos / 1000000000 :=
    Nat.mul_div_cancel _ (by decide)
  unfold text clock
  show t.date.text ++ _ ++ _ ++ _ ++ _ ++ _ ++ padded 2 (_ + t.nanos / 1000000000 * 1000000000 /
    1000000000) ++ _ = _
  rw [hsecond]
  rfl

/-- The time of day in UTC, written to the second. -/
def clockSpelling (t : Timestamp) : Clock.Spelling where
  hour := t.clock.hour
  minute := t.clock.minute
  second := t.clock.second
  fraction := none
  hour_le := by
    unfold clock
    simp only
    omega
  minute_le := by
    unfold clock
    simp only
    omega
  second_le := by
    have hnanos := t.nanos_lt
    have hleap := t.leap
    unfold clock
    simp only
    omega
  fraction_spec := nofun

theorem toList_text (t : Timestamp) : t.text.toList =
    t.date.text.toList ++ 'T' :: (t.clockSpelling.text ++ Offset.Spelling.zulu.text) := by
  simp [text, clockSpelling, Clock.Spelling.text, Offset.Spelling.zulu, Offset.Spelling.text]

/-- **A printed timestamp reads back**, as the second that the timestamp lies in. -/
theorem ofText?_text (t : Timestamp) : ofText? t.text = some t.wholeSecond := by
  obtain ⟨hvalid, hnumber⟩ : t.date.isValid = true ∧ t.date.dayNumber = t.seconds / 86400 :=
    Date.ofDayNumber_spec (t.seconds / 86400)
  have hmark : 'T' ∈ Moment.marks := by decide
  have hread := Lenient.ofText?_spelled hvalid hmark t.clockSpelling
    Offset.Spelling.zulu
  rw [← t.toList_text, String.ofList_toList, ofLocal?_spelled hvalid, hnumber] at hread
  rw [hread]
  -- a leap second is second 60, and counts with the second before it
  have hsecond : t.clockSpelling.second = (t.seconds % 60).toNat + t.nanos / 1000000000 := by
    show (t.seconds % 86400).toNat % 60 + t.nanos / 1000000000 = _
    omega
  have hcapped : min t.clockSpelling.second 59 = (t.seconds % 60).toNat := by
    have hnanos := t.nanos_lt
    have hleap := t.leap
    omega
  have hseconds : t.seconds / 86400 * 86400 + t.clockSpelling.utcMinutes .zulu * 60 +
      (min t.clockSpelling.second 59 : Nat) = t.seconds := by
    have hminutes : t.clockSpelling.utcMinutes .zulu = t.seconds % 86400 / 60 := by
      show (((t.seconds % 86400).toNat / 3600 : Nat) * 60 +
        ((t.seconds % 86400).toNat / 60 % 60 : Nat) - 0 : Int) = _
      omega
    rw [hminutes, hcapped]
    omega
  have hnanos : t.clockSpelling.clock.nanos +
      (t.clockSpelling.second - min t.clockSpelling.second 59) * 1000000000 =
        t.nanos / 1000000000 * 1000000000 := by
    rw [hcapped, hsecond, Nat.add_sub_cancel_left]
    exact Nat.zero_add _
  rw [hseconds, hnanos]
  exact dif_pos ⟨t.seconds_range, t.wholeSecond.nanos_lt, t.wholeSecond.leap⟩

end Timestamp
end SeriesQuery
