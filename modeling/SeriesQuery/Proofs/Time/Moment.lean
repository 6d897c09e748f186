/-
Date-times are read as they are written.

A date-time has a date, a time of day or both, and with both it may have an offset.
`Moment.Spelling` has one constructor for each of these, so it says what the notation allows without
a reader.  A spelled date-time is read to its end before anything that cannot be taken for more of
it, and what is read has the text of another spelling of the same date-time, so it can be printed
and read again.
-/
import SeriesQuery.Proofs.Time.Calendar
import SeriesQuery.Proofs.Time.Parts

namespace SeriesQuery

open Text Text.Reader

/-! ### Dates -/

/-- A date of the calendar whose year is written with four digits. -/
structure Date.HasFourDigits (d : Date) : Prop where
  valid : d.isValid = true
  year_nonneg : 0 ≤ d.year
  year_le : d.year ≤ 9999

namespace Date

theorem toList_text (d : Date) : d.text.toList = (yearText d.year).toList ++
    '-' :: ((padded 2 d.month).toList ++ '-' :: (padded 2 d.day).toList) := by
  simp [text]

theorem yearText_of_hasFourDigits {d : Date} (h : d.HasFourDigits) :
    yearText d.year = padded 4 d.year.natAbs := by
  have hnonneg := h.year_nonneg
  have hle := h.year_le
  unfold yearText
  rw [if_neg (by omega), if_pos hle]

end Date

namespace Moment

/-- A date of four, two and two digits is read whatever follows it. -/
theorem readDate_append {d : Date} (h : d.HasFourDigits) (rest : List Char) :
    readDate (d.text.toList ++ rest) = some (d, rest) := by
  obtain ⟨hmonth, hday⟩ := Date.lt_of_isValid h.valid
  have hyear : d.year.natAbs < 10 ^ 4 := by
    have hnonneg := h.year_nonneg
    have hle := h.year_le
    omega
  have hdigits : ∀ c ∈ (padded 4 d.year.natAbs).toList, c.isDigit = true := isDigit_of_mem_padded
  have hlength := length_padded (by decide) hyear
  have hvalue := valueOf_padded 4 d.year.natAbs
  have hdate : d.text.toList ++ rest = (padded 4 d.year.natAbs).toList ++ '-' ::
      ((padded 2 d.month).toList ++ '-' :: ((padded 2 d.day).toList ++ rest)) := by
    rw [d.toList_text, Date.yearText_of_hasFourDigits h]
    simp only [List.append_assoc, List.cons_append]
  rw [hdate]
  generalize (padded 4 d.year.natAbs).toList = ds at *
  -- the year is read as its century and the two digits behind it
  rw [← List.take_append_drop 2 ds, List.append_assoc]
  have hcentury := @twoDigits_append (ds.take 2)
    (fun c hc => hdigits c (List.mem_of_mem_take hc)) (by rw [List.length_take]; omega)
  have hbehind := @twoDigits_append (ds.drop 2)
    (fun c hc => hdigits c (List.mem_of_mem_drop hc)) (by rw [List.length_drop]; omega)
  have hsum : Numeral.valueOf (ds.take 2) * 100 + Numeral.valueOf (ds.drop 2) = d.year.natAbs := by
    have happend := Numeral.valueOf_append (ds.take 2) (ds.drop 2)
    rw [List.take_append_drop, hvalue, List.length_drop, hlength] at happend
    omega
  have hwhole : (⟨(Numeral.valueOf (ds.take 2) : Int) * 100 + Numeral.valueOf (ds.drop 2),
      d.month, d.day⟩ : Date) = d := by
    have hnonneg := h.year_nonneg
    have hyear : (Numeral.valueOf (ds.take 2) : Int) * 100 + Numeral.valueOf (ds.drop 2) =
        d.year := by
      omega
    rw [hyear]
  have hvalid := h.valid
  unfold readDate
  simp only [bind_apply, hcentury, hbehind, Option.bind_some, Reader.char, if_true,
    twoDigits_padded hmonth, twoDigits_padded hday, hwhole, hvalid]
  rfl

/-! ### Times of day and offsets -/

theorem readFraction_append {fraction : Option (List Char)} {rest : List Char}
    (h : ∀ ds ∈ fraction, ds ≠ [] ∧ ∀ c ∈ ds, c.isDigit = true)
    (hrest : EndsRun (fun c => c.isDigit || c == '.') rest) :
    readFraction (fraction.elim [] ('.' :: ·) ++ rest) = some (fraction.elim 0 nanosOf, rest) := by
  unfold readFraction
  rw [bind_apply, optional_apply]
  cases fraction with
  | none =>
      cases rest with
      | nil => rfl
      | cons c r =>
          have hc : c ≠ '.' := by
            rintro rfl
            exact absurd (hrest _ _ rfl) (by decide)
          simp [Reader.char, hc]
          rfl
  | some ds =>
      obtain ⟨hne, hds⟩ := h ds rfl
      have hends : EndsRun Char.isDigit rest := hrest.mono fun c hc => by simp [hc]
      have hspan := span1_eq_some_iff.mpr ⟨span_append hds hends, hne⟩
      simp [Reader.char, hspan]
      rfl

/-- A time of day is read before anything that is no more of its fraction. -/
theorem readClock_append (s : Strictness) (w : Clock.Spelling) {rest : List Char}
    (hrest : EndsRun (fun c => c.isDigit || c == '.') rest) :
    readClock s (w.text ++ rest) = some (w.clock, rest) := by
  have hhour := w.hour_le
  have hminute := w.minute_le
  have hsecond := w.second_le
  unfold readClock Clock.Spelling.text
  simp only [bind_apply, List.append_assoc, List.cons_append, Option.bind_some, Reader.char,
    if_true, twoDigits_padded (by omega : w.hour < 100),
    twoDigits_padded (by omega : w.minute < 100), twoDigits_padded (by omega : w.second < 100),
    readFraction_append w.fraction_spec hrest]
  cases s with
  | strict => exact congrFun (if_pos ⟨hhour, hminute, hsecond⟩) rest
  | lax => exact congrFun (if_pos ⟨Nat.le_succ_of_le hhour, hminute, hsecond⟩) rest

theorem readOffset_append (s : Strictness) (w : Offset.Spelling) (rest : List Char) :
    readOffset s (w.text ++ rest) = some (w.offset, rest) := by
  cases w with
  | letter c hc =>
      simp only [List.mem_cons, List.not_mem_nil, or_false] at hc
      rcases hc with rfl | rfl <;> rfl
  | numeric sign hour minute hsign hhour hminute =>
      have hlax : hour * 60 + minute ≤ 24 * 60 := by omega
      have hsigned (r : List Char) :
          satisfying (fun c => c == 'Z' || c == 'z' || c == '+' || c == '-') (sign :: r) =
            some (sign, r) := by
        simp only [List.mem_cons, List.not_mem_nil, or_false] at hsign
        rcases hsign with rfl | rfl <;> rfl
      have hzulu : (sign == 'Z' || sign == 'z') = false := by
        simp only [List.mem_cons, List.not_mem_nil, or_false] at hsign
        rcases hsign with rfl | rfl <;> rfl
      unfold readOffset Offset.Spelling.text
      rw [List.cons_append, bind_apply, hsigned, Option.bind_some]
      simp only [hzulu, Bool.false_eq_true, if_false, List.append_assoc, List.cons_append,
        bind_apply, Reader.char, if_true, Option.bind_some,
        twoDigits_padded (by omega : hour < 100), twoDigits_padded (by omega : minute < 100)]
      cases s with
      | strict => exact congrFun (if_pos (decide_eq_true ⟨hhour, hminute⟩)) rest
      | lax => exact congrFun (if_pos (decide_eq_true hlax)) rest

/-! ### Date-times -/

/-- The marks that may stand between a date and a time. -/
def marks : List Char := ['T', 't', ' ']

/-- A way to write a date-time. -/
inductive Spelling where
  | offsetDateTime (d : Date) (mark : Char) (c : Clock.Spelling) (o : Offset.Spelling)
      (hd : d.HasFourDigits) (hmark : mark ∈ marks)
  | localDateTime (d : Date) (mark : Char) (c : Clock.Spelling) (hd : d.HasFourDigits)
      (hmark : mark ∈ marks)
  | localDate (d : Date) (hd : d.HasFourDigits)
  | localTime (c : Clock.Spelling)

namespace Spelling

/-- The date-time as it is written. -/
def text : Spelling → List Char
  | offsetDateTime d mark c o _ _ => d.text.toList ++ mark :: (c.text ++ o.text)
  | localDateTime d mark c _ _ => d.text.toList ++ mark :: c.text
  | localDate d _ => d.text.toList
  | localTime c => c.text

/-- The date-time that is meant. -/
def moment : Spelling → Moment
  | offsetDateTime d _ c o _ _ => ⟨some d, some c.clock, some o.offset⟩
  | localDateTime d _ c _ _ => ⟨some d, some c.clock, none⟩
  | localDate d _ => ⟨some d, none, none⟩
  | localTime c => ⟨none, some c.clock, none⟩

end Spelling

/-- A character that could be taken for more of a date-time. -/
def isMomentChar (c : Char) : Bool :=
  c.isDigit || ['T', 't', 'Z', 'z', '.', '+', '-'].contains c

/-- Nothing that could be taken for more of a date-time: no character of one, and no digit
    directly behind a space. -/
structure EndsMoment (rest : List Char) : Prop where
  head : EndsRun isMomentChar rest
  behindSpace : ∀ r, rest = ' ' :: r → EndsRun Char.isDigit r

theorem endsMoment_nil : EndsMoment [] where
  head := endsRun_nil _
  behindSpace := nofun

theorem satisfying_mark {mark : Char} (h : mark ∈ marks) (r : List Char) :
    satisfying (fun c => c == 'T' || c == 't' || c == ' ') (mark :: r) = some (mark, r) := by
  simp only [marks, List.mem_cons, List.not_mem_nil, or_false] at h
  rcases h with rfl | rfl | rfl <;> rfl

theorem twoDigits_of_endsRun {r : List Char} (h : EndsRun Char.isDigit r) : twoDigits r = none := by
  cases r with
  | nil => rfl
  | cons c r =>
      have hc : satisfying Char.isDigit (c :: r) = none := if_neg (by simp [h c r rfl])
      exact bind_of_eq_none hc

/-- A time of day and an offset, if one stands behind it. -/
def readTimed (s : Strictness) : Reader (Clock × Option Offset) := do
  let _ ← satisfying fun c => c == 'T' || c == 't' || c == ' '
  let time ← readClock s
  let offset ← Reader.optional (readOffset s)
  return (time, offset)

theorem read_eq (s : Strictness) : read s =
    ((do
      let date ← readDate
      match ← Reader.optional (readTimed s) with
      | some (time, offset) => return ⟨some date, some time, offset⟩
      | none => return ⟨some date, none, none⟩)
    <|> (do
      let time ← readClock s
      return ⟨none, some time, none⟩)) :=
  rfl

theorem read_of_date {s : Strictness} {cs rest : List Char} {d : Date}
    (hdate : readDate cs = some (d, rest)) : read s cs =
      match readTimed s rest with
      | some ((time, offset), rest') => some (⟨some d, some time, offset⟩, rest')
      | none => some (⟨some d, none, none⟩, rest) := by
  rw [read_eq, orElse_apply, bind_apply, hdate, Option.bind_some]
  simp only [bind_apply, optional_apply]
  cases readTimed s rest <;> rfl

theorem read_of_no_date {s : Strictness} {cs : List Char} (hdate : readDate cs = none) :
    read s cs = (readClock s cs).map fun (time, rest) => (⟨none, some time, none⟩, rest) := by
  rw [read_eq, orElse_apply, bind_apply, hdate, Option.bind_none, bind_apply]
  cases readClock s cs <;> rfl

theorem readTimed_of_endsMoment (s : Strictness) {rest : List Char} (h : EndsMoment rest) :
    readTimed s rest = none := by
  cases rest with
  | nil => rfl
  | cons c r =>
      have hc := h.head c r rfl
      unfold readTimed
      by_cases hspace : c = ' '
      · have hclock : readClock s r = none :=
          bind_of_eq_none (twoDigits_of_endsRun (h.behindSpace r (by rw [hspace])))
        rw [hspace, bind_of_eq_some (satisfying_mark (by decide) r), bind_of_eq_none hclock]
      · have hnone : satisfying (fun c => c == 'T' || c == 't' || c == ' ') (c :: r) = none := by
          refine if_neg ?_
          rintro hmark
          simp [isMomentChar] at hc
          simp_all
        exact bind_of_eq_none hnone

theorem readOffset_of_endsMoment (s : Strictness) {rest : List Char} (h : EndsMoment rest) :
    readOffset s rest = none := by
  cases rest with
  | nil => rfl
  | cons c r =>
      have hc := h.head c r rfl
      have hnone : satisfying (fun c => c == 'Z' || c == 'z' || c == '+' || c == '-') (c :: r) =
          none := by
        refine if_neg ?_
        rintro hmark
        simp [isMomentChar] at hc
        simp_all
      exact bind_of_eq_none hnone

/-- **A spelled date-time is read to its end**, before anything that is no more of it. -/
theorem read_append (s : Strictness) (w : Spelling) {rest : List Char} (hrest : EndsMoment rest) :
    read s (w.text ++ rest) = some (w.moment, rest) := by
  have hfraction : EndsRun (fun c => c.isDigit || c == '.') rest :=
    hrest.head.mono fun c hc => by
      unfold isMomentChar
      simp at hc ⊢
      tauto
  cases w with
  | offsetDateTime d mark c o hd hmark =>
      have hoffset : EndsRun (fun c => c.isDigit || c == '.') (o.text ++ rest) :=
        o.endsRun_text (by decide) rest
      have htimed : readTimed s (mark :: (c.text ++ (o.text ++ rest))) =
          some ((c.clock, some o.offset), rest) := by
        unfold readTimed
        simp only [bind_apply, satisfying_mark hmark, Option.bind_some,
          readClock_append s c hoffset, optional_apply, readOffset_append, pure_apply]
      unfold Spelling.text
      rw [List.append_assoc, List.cons_append, List.append_assoc,
        read_of_date (readDate_append hd _), htimed]
      rfl
  | localDateTime d mark c hd hmark =>
      have htimed : readTimed s (mark :: (c.text ++ rest)) = some ((c.clock, none), rest) := by
        unfold readTimed
        simp only [bind_apply, satisfying_mark hmark, Option.bind_some,
          readClock_append s c hfraction, optional_apply, readOffset_of_endsMoment s hrest,
          pure_apply]
      unfold Spelling.text
      rw [List.append_assoc, List.cons_append, read_of_date (readDate_append hd _), htimed]
      rfl
  | localDate d hd =>
      unfold Spelling.text
      rw [read_of_date (readDate_append hd _), readTimed_of_endsMoment s hrest]
      rfl
  | localTime c =>
      have hhour := c.hour_le
      have hdate : readDate (c.text ++ rest) = none := by
        unfold readDate Clock.Spelling.text
        rw [List.append_assoc, List.cons_append, bind_of_eq_some (twoDigits_padded (by omega) _),
          bind_of_eq_none (twoDigits_of_endsRun (endsRun_cons (by decide) _))]
      unfold Spelling.text
      rw [read_of_no_date hdate, readClock_append s c hfraction]
      rfl

/-! ### Reading what is printed -/

namespace Spelling

/-- The spelling that is printed, a `T` between date and time. -/
def printed : Spelling → Spelling
  | offsetDateTime d _ c o hd _ => offsetDateTime d 'T' c.printed o.printed hd (by decide)
  | localDateTime d _ c hd _ => localDateTime d 'T' c.printed hd (by decide)
  | localDate d hd => localDate d hd
  | localTime c => localTime c.printed

theorem text_printed (w : Spelling) : w.printed.text = w.moment.text.toList := by
  cases w <;> simp [printed, text, moment, Moment.text, Clock.Spelling.text_printed,
    Offset.Spelling.text_printed]

theorem moment_printed (w : Spelling) : w.printed.moment = w.moment := by
  cases w <;> simp [printed, moment, Clock.Spelling.clock_printed, Offset.Spelling.offset_printed]

end Spelling

/-- **A date-time that was read is read again from its text**, as the same date-time. -/
theorem ofText?_text (w : Spelling) : ofText? w.moment.text = some w.moment := by
  have hread := read_append .lax w.printed endsMoment_nil
  rw [List.append_nil, w.text_printed, w.moment_printed] at hread
  exact whole_eq_some_iff.mpr hread

end Moment
end SeriesQuery
