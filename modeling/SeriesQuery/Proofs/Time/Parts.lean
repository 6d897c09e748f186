/-
How the parts of a timestamp are written.

The fields of a date, a time of day and an offset have two digits or four, so each is read to its
end whatever follows it.  A fraction of a second may have any number of digits, and as it is
printed it loses the zeros at its end, which stand for nothing.  `Clock.Spelling` and
`Offset.Spelling` put down how a time of day and an offset can be written, and what is meant.
-/
import SeriesQuery.Proofs.Text.DigitRuns
import SeriesQuery.Proofs.Text.Taking
import SeriesQuery.Time.Moment

namespace SeriesQuery

open Text

/-! ### Fields of fixed width -/

theorem toList_padded (places n : Nat) : (padded places n).toList =
    List.replicate (places - (Nat.toDigits 10 n).length) '0' ++ Nat.toDigits 10 n := by
  simp [padded]

theorem isDigit_of_mem_padded {places n : Nat} :
    ∀ c ∈ (padded places n).toList, c.isDigit = true := by
  rw [toList_padded]
  exact List.forall_mem_append.mpr ⟨Numeral.isDigit_of_mem_zeros, Numeral.isDigit_of_mem_toDigits⟩

theorem valueOf_padded (places n : Nat) : Numeral.valueOf (padded places n).toList = n := by
  rw [toList_padded, Numeral.valueOf_zeros_append, Numeral.valueOf_toDigits]

theorem length_padded {places n : Nat} (hpos : 0 < places) (h : n < 10 ^ places) :
    (padded places n).toList.length = places := by
  have hle : (Nat.toDigits 10 n).length ≤ places :=
    (Nat.length_toDigits_le_iff (by decide) hpos).mpr h
  rw [toList_padded, List.length_append, List.length_replicate]
  omega

theorem padded_ne_nil (places n : Nat) : (padded places n).toList ≠ [] := by
  rw [toList_padded]
  exact List.append_ne_nil_of_right_ne_nil _ Nat.toDigits_ne_nil

/-- Two digits are read whatever follows them. -/
theorem twoDigits_append {ds : List Char} (hds : ∀ c ∈ ds, c.isDigit = true)
    (hlength : ds.length = 2) (rest : List Char) :
    twoDigits (ds ++ rest) = some (Numeral.valueOf ds, rest) := by
  match ds, hlength with
  | [a, b], _ =>
      have ha : a.isDigit = true := hds a (by simp)
      have hb : b.isDigit = true := hds b (by simp)
      have hread (c : Char) (hc : c.isDigit = true) (r : List Char) :
          Reader.satisfying Char.isDigit (c :: r) = some (c, r) := if_pos hc
      unfold twoDigits
      simp only [List.cons_append, List.nil_append, Reader.bind_apply, hread _ ha, hread _ hb,
        Option.bind_some, Reader.pure_apply]

theorem twoDigits_padded {n : Nat} (h : n < 100) (rest : List Char) :
    twoDigits ((padded 2 n).toList ++ rest) = some (n, rest) := by
  rw [twoDigits_append isDigit_of_mem_padded (length_padded (by decide) h), valueOf_padded]

/-! ### Fractions of a second -/

theorem nanosOf_lt {ds : List Char} (hds : ∀ c ∈ ds, c.isDigit = true) :
    nanosOf ds < 1000000000 := by
  have hlt : Numeral.valueOf (ds.take 9) < 10 ^ (ds.take 9).length :=
    ofDigitChars_lt fun c hc => hds c (List.mem_of_mem_take hc)
  have hlength : (ds.take 9).length ≤ 9 := by
    rw [List.length_take]
    omega
  have hpow : 10 ^ (ds.take 9).length * 10 ^ (9 - (ds.take 9).length) = 1000000000 := by
    rw [← Nat.pow_add, Nat.add_sub_cancel' hlength]
  have hpos : 0 < 10 ^ (9 - (ds.take 9).length) := Nat.pow_pos (by decide)
  calc nanosOf ds < 10 ^ (ds.take 9).length * 10 ^ (9 - (ds.take 9).length) :=
        Nat.mul_lt_mul_of_pos_right hlt hpos
    _ = 1000000000 := hpow

theorem nanosOf_nil : nanosOf [] = 0 := by
  decide

/-- The digits without the zeros at their end. -/
def withoutZeros (ds : List Char) : List Char :=
  (ds.reverse.dropWhile (· == '0')).reverse

/-- Nothing but zeros is lost. -/
theorem exists_withoutZeros (ds : List Char) :
    ∃ k, ds = withoutZeros ds ++ List.replicate k '0' := by
  have hzeros : ds.reverse.takeWhile (· == '0') =
      List.replicate (ds.reverse.takeWhile (· == '0')).length '0' :=
    List.eq_replicate_iff.mpr ⟨rfl, fun c hc =>
      beq_iff_eq.mp (List.all_eq_true.mp List.all_takeWhile c hc)⟩
  refine ⟨(ds.reverse.takeWhile (· == '0')).length, ?_⟩
  calc ds = ds.reverse.reverse := ds.reverse_reverse.symm
    _ = (ds.reverse.takeWhile (· == '0') ++ ds.reverse.dropWhile (· == '0')).reverse := by
      rw [List.takeWhile_append_dropWhile]
    _ = withoutZeros ds ++ (ds.reverse.takeWhile (· == '0')).reverse := List.reverse_append
    _ = _ := by rw [hzeros, List.reverse_replicate, List.length_replicate]

theorem isDigit_of_mem_withoutZeros {ds : List Char} (hds : ∀ c ∈ ds, c.isDigit = true) :
    ∀ c ∈ withoutZeros ds, c.isDigit = true := by
  obtain ⟨k, hk⟩ := exists_withoutZeros ds
  intro c hc
  refine hds c ?_
  rw [hk]
  exact List.mem_append_left _ hc

/-- Nine digits of a fraction stand for what they stand for without the zeros at their end. -/
theorem nanosOf_withoutZeros {n : Nat} (h : n < 1000000000) :
    nanosOf (withoutZeros (padded 9 n).toList) = n := by
  obtain ⟨k, hk⟩ := exists_withoutZeros (padded 9 n).toList
  have hlength : (withoutZeros (padded 9 n).toList).length + k = 9 := by
    have hnine := @length_padded 9 n (by decide) h
    rw [hk, List.length_append, List.length_replicate] at hnine
    exact hnine
  have hvalue := valueOf_padded 9 n
  rw [hk, Numeral.valueOf_append_zeros] at hvalue
  unfold nanosOf
  simp only
  rw [List.take_of_length_le (by omega), Nat.mul_comm,
    show 9 - (withoutZeros (padded 9 n).toList).length = k by omega]
  exact hvalue

/-! ### Times of day -/

/-- A way to write a time of day. -/
structure Clock.Spelling where
  hour : Nat
  minute : Nat
  second : Nat
  /-- The digits behind the point, if there is a point. -/
  fraction : Option (List Char)
  hour_le : hour ≤ 23
  minute_le : minute ≤ 59
  /-- Second 60 is a leap second. -/
  second_le : second ≤ 60
  /-- Behind the point there are digits, and nothing else. -/
  fraction_spec : ∀ ds ∈ fraction, ds ≠ [] ∧ ∀ c ∈ ds, c.isDigit = true

namespace Clock.Spelling

/-- The time as it is written. -/
def text (w : Clock.Spelling) : List Char :=
  (padded 2 w.hour).toList ++ ':' :: ((padded 2 w.minute).toList ++
    ':' :: ((padded 2 w.second).toList ++ w.fraction.elim [] ('.' :: ·)))

/-- The time that is meant. -/
def clock (w : Clock.Spelling) : Clock :=
  ⟨w.hour, w.minute, w.second, w.fraction.elim 0 nanosOf⟩

theorem nanos_clock_lt (w : Clock.Spelling) : w.clock.nanos < 1000000000 := by
  show w.fraction.elim 0 nanosOf < 1000000000
  cases h : w.fraction with
  | none => exact Nat.zero_lt_succ _
  | some ds => exact nanosOf_lt (w.fraction_spec ds h).2

/-- The spelling that is printed: a fraction only where it is not zero, and no zero at its end. -/
def printed (w : Clock.Spelling) : Clock.Spelling where
  hour := w.hour
  minute := w.minute
  second := w.second
  fraction :=
    if w.clock.nanos = 0 then none else some (withoutZeros (padded 9 w.clock.nanos).toList)
  hour_le := w.hour_le
  minute_le := w.minute_le
  second_le := w.second_le
  fraction_spec := by
    intro ds hds
    split at hds
    · cases hds
    · rename_i hnanos
      obtain rfl : withoutZeros (padded 9 w.clock.nanos).toList = ds := Option.some.inj hds
      refine ⟨fun hnil => hnanos ?_, isDigit_of_mem_withoutZeros isDigit_of_mem_padded⟩
      rw [← nanosOf_withoutZeros w.nanos_clock_lt, hnil, nanosOf_nil]

theorem text_printed (w : Clock.Spelling) : w.printed.text = w.clock.text.toList := by
  unfold text printed Clock.text
  split <;> simp [clock, withoutZeros]

theorem clock_printed (w : Clock.Spelling) : w.printed.clock = w.clock := by
  unfold clock printed
  split <;> rename_i hnanos
  · rw [show w.fraction.elim 0 nanosOf = 0 from hnanos]
    rfl
  · exact congrArg (Clock.mk w.hour w.minute w.second) (nanosOf_withoutZeros w.nanos_clock_lt)

end Clock.Spelling

/-! ### Offsets -/

/-- A way to write an offset. -/
inductive Offset.Spelling where
  | letter (c : Char) (hc : c ∈ ['Z', 'z'])
  | numeric (sign : Char) (hour minute : Nat) (hsign : sign ∈ ['+', '-']) (hhour : hour ≤ 23)
      (hminute : minute ≤ 59)

namespace Offset.Spelling

/-- The offset as it is written. -/
def text : Offset.Spelling → List Char
  | letter c _ => [c]
  | numeric sign hour minute _ _ _ =>
    sign :: ((padded 2 hour).toList ++ ':' :: (padded 2 minute).toList)

/-- How many minutes local clocks are ahead of UTC. -/
def ahead : Offset.Spelling → Int
  | letter _ _ => 0
  | numeric sign hour minute _ _ _ =>
    if sign == '-' then -(hour * 60 + minute : Int) else hour * 60 + minute

/-- The offset that is meant. -/
def offset : Offset.Spelling → Offset
  | letter _ _ => .utc
  | w@(numeric ..) => .minutes w.ahead

theorem seconds_offset (w : Offset.Spelling) : w.offset.seconds = w.ahead * 60 := by
  cases w <;> rfl

/-- No clock is a whole day ahead or behind. -/
theorem natAbs_ahead_lt (w : Offset.Spelling) : w.ahead.natAbs < 1440 := by
  cases w with
  | letter c hc => exact Nat.zero_lt_succ _
  | numeric sign hour minute _ hhour hminute =>
      unfold ahead
      split <;> omega

/-- The letter that is printed for UTC. -/
def zulu : Offset.Spelling :=
  letter 'Z' List.mem_cons_self

/-- Hours and minutes behind a sign, which is `+` where there are none. -/
def ofAhead (ahead : Int) (h : ahead.natAbs < 1440) : Offset.Spelling :=
  numeric (if ahead < 0 then '-' else '+') (ahead.natAbs / 60) (ahead.natAbs % 60)
    (by split <;> decide)
    (Nat.le_of_lt_succ (Nat.div_lt_of_lt_mul h))
    (Nat.le_of_lt_succ (Nat.mod_lt _ (by decide)))

theorem ahead_ofAhead (a : Int) (h : a.natAbs < 1440) : (ofAhead a h).ahead = a := by
  unfold ofAhead ahead
  simp only
  rcases Int.lt_or_le a 0 with hneg | hnonneg
  · rw [if_pos hneg, if_pos (beq_self_eq_true '-')]
    omega
  · rw [if_neg (Int.not_lt.mpr hnonneg), if_neg (by decide)]
    omega

/-- The spelling that is printed: `Z`, or sign and size. -/
def printed : Offset.Spelling → Offset.Spelling
  | letter _ _ => zulu
  | w@(numeric ..) => ofAhead w.ahead w.natAbs_ahead_lt

theorem text_printed (w : Offset.Spelling) : w.printed.text = w.offset.text.toList := by
  cases w with
  | letter c hc => simp [printed, zulu, text, offset, Offset.text]
  | numeric =>
      unfold printed offset ofAhead text Offset.text
      simp only
      split <;> simp

theorem offset_printed (w : Offset.Spelling) : w.printed.offset = w.offset := by
  cases w with
  | letter c hc => rfl
  | numeric sign hour minute hsign hhour hminute =>
      exact congrArg Offset.minutes (ahead_ofAhead _ (natAbs_ahead_lt _))

/-- An offset cannot be taken for more of a run that its first character does not go on. -/
theorem endsRun_text (w : Offset.Spelling) {p : Char → Bool}
    (hp : ∀ c ∈ ['Z', 'z', '+', '-'], p c = false) (rest : List Char) :
    EndsRun p (w.text ++ rest) := by
  cases w with
  | letter c hc => exact endsRun_cons (hp c (List.mem_append_left ['+', '-'] hc)) _
  | numeric sign hour minute hsign _ _ =>
      exact endsRun_cons (hp sign (List.mem_append_right ['Z', 'z'] hsign)) _

end Offset.Spelling

end SeriesQuery
