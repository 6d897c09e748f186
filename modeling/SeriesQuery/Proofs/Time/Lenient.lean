/-
Texts that stand for timestamps.

A text may leave digits out and put blanks in, so reading it looks at more than the spellings that
are printed.  On a date, a mark, a time of day and an offset that are spelled in full it finds the
point in time that they mean.  Here the year need not have four digits: with a sign it has as many
as it needs.
-/
import SeriesQuery.Proofs.Text.Blank
import SeriesQuery.Proofs.Time.Moment
import SeriesQuery.Time.Lenient

namespace SeriesQuery.Timestamp.Lenient

open Text Text.Reader

/-! ### Fields -/

theorem blanks_apply (s : List Char) : blanks s = some ((), s.dropWhile isBlank) :=
  rfl

theorem field_apply (s : List Char) : field s = digits 2 (s.dropWhile isBlank) :=
  rfl

theorem mark_apply (c : Char) (s : List Char) : mark c s = Reader.char c (s.dropWhile isBlank) :=
  rfl

/-- No blanks stand before digits. -/
theorem dropWhile_isBlank {ds : List Char} (hds : ∀ c ∈ ds, c.isDigit = true) (hne : ds ≠ [])
    (rest : List Char) : (ds ++ rest).dropWhile isBlank = ds ++ rest := by
  cases ds with
  | nil => exact absurd rfl hne
  | cons c ds =>
      refine List.dropWhile_cons_of_neg ?_
      simp [isBlank_of_isDigit (hds c (by simp))]

/-- As many digits as may be read are read whatever follows them. -/
theorem digits_append {ds : List Char} (hds : ∀ c ∈ ds, c.isDigit = true) (hne : ds ≠ [])
    (rest : List Char) : digits ds.length (ds ++ rest) = some (Numeral.valueOf ds, rest) := by
  have htaken : ((ds ++ rest).takeWhile Char.isDigit).take ds.length = ds := by
    rw [List.takeWhile_append_of_pos hds, List.take_left]
  unfold digits
  simp only [htaken, List.isEmpty_eq_false_iff.mpr hne, Bool.false_eq_true, if_false,
    List.drop_left]

theorem field_padded {n : Nat} (h : n < 100) (rest : List Char) :
    field ((padded 2 n).toList ++ rest) = some (n, rest) := by
  have hdigits := digits_append isDigit_of_mem_padded (padded_ne_nil 2 n) rest
  rw [length_padded (by decide) h, valueOf_padded] at hdigits
  rw [field_apply, dropWhile_isBlank isDigit_of_mem_padded (padded_ne_nil 2 n), hdigits]

theorem mark_cons {c : Char} (h : isBlank c = false) (rest : List Char) :
    mark c (c :: rest) = some ((), rest) := by
  rw [mark_apply, List.dropWhile_cons_of_neg (by simp [h])]
  exact if_pos rfl

/-! ### Years -/

theorem year_minus (s : List Char) : year ('-' :: s) =
    (span1 Char.isDigit s).map fun (ds, rest) => (-(Numeral.valueOf ds : Int), rest) := by
  have hblank : ('-' :: s).dropWhile isBlank = '-' :: s := rfl
  unfold year
  simp only [bind_apply, blanks_apply, get_apply, Option.bind_some, hblank, set_apply, pure_apply]
  cases span1 Char.isDigit s <;> rfl

theorem year_plus (s : List Char) : year ('+' :: s) =
    (span1 Char.isDigit s).map fun (ds, rest) => ((Numeral.valueOf ds : Int), rest) := by
  have hblank : ('+' :: s).dropWhile isBlank = '+' :: s := rfl
  unfold year
  simp only [bind_apply, blanks_apply, get_apply, Option.bind_some, hblank, set_apply, pure_apply]
  cases span1 Char.isDigit s <;> rfl

theorem year_digits {ds : List Char} (hds : ∀ c ∈ ds, c.isDigit = true) (hlength : ds.length = 4)
    (rest : List Char) : year (ds ++ rest) = some ((Numeral.valueOf ds : Int), rest) := by
  have hne : ds ≠ [] := by
    rintro rfl
    cases hlength
  have hunsigned (c : Char) (r : List Char) (h : ds ++ rest = c :: r) : c.isDigit = true := by
    obtain ⟨d, ds, rfl⟩ := List.exists_cons_of_ne_nil hne
    obtain rfl := (List.cons.inj h).1
    exact hds d (by simp)
  have hdigits := digits_append hds hne rest
  have hblanks := blanks_apply (ds ++ rest)
  rw [dropWhile_isBlank hds hne] at hblanks
  rw [hlength] at hdigits
  unfold year
  rw [bind_of_eq_some hblanks, bind_of_eq_some (get_apply _)]
  generalize ds ++ rest = s at *
  split
  · exact absurd (hunsigned '-' _ rfl) (by decide)
  · exact absurd (hunsigned '+' _ rfl) (by decide)
  · rw [bind_of_eq_some hdigits]
    rfl

/-- A year is read as it is printed, with a sign where it has one. -/
theorem year_append (y : Int) {rest : List Char} (hrest : EndsRun Char.isDigit rest) :
    year ((Date.yearText y).toList ++ rest) = some (y, rest) := by
  have hspan : span1 Char.isDigit ((padded 4 y.natAbs).toList ++ rest) =
      some ((padded 4 y.natAbs).toList, rest) :=
    span1_eq_some_iff.mpr ⟨span_append isDigit_of_mem_padded hrest, padded_ne_nil 4 _⟩
  unfold Date.yearText
  split
  · rename_i hneg
    have htext : ("-" ++ padded 4 y.natAbs).toList ++ rest =
        '-' :: ((padded 4 y.natAbs).toList ++ rest) := by simp
    rw [htext, year_minus, hspan, Option.map_some]
    simp only [valueOf_padded, Option.some.injEq, Prod.mk.injEq, and_true]
    omega
  · split
    · rename_i hnonneg hle
      rw [year_digits isDigit_of_mem_padded (length_padded (by decide) (by omega)), valueOf_padded]
      simp only [Option.some.injEq, Prod.mk.injEq, and_true]
      omega
    · rename_i hnonneg _
      have htext : ("+" ++ padded 4 y.natAbs).toList ++ rest =
          '+' :: ((padded 4 y.natAbs).toList ++ rest) := by simp
      rw [htext, year_plus, hspan, Option.map_some]
      simp only [valueOf_padded, Option.some.injEq, Prod.mk.injEq, and_true]
      omega

/-! ### Fractions and offsets -/

theorem fraction_append {fraction : Option (List Char)} {rest : List Char}
    (h : ∀ ds ∈ fraction, ds ≠ [] ∧ ∀ c ∈ ds, c.isDigit = true)
    (hrest : EndsRun (fun c => c.isDigit || c == '.') rest) :
    Lenient.fraction (fraction.elim [] ('.' :: ·) ++ rest) =
      some (fraction.elim 0 nanosOf, rest) := by
  unfold Lenient.fraction
  rw [bind_of_eq_some (get_apply _)]
  cases fraction with
  | none =>
      simp only [Option.elim_none, List.nil_append]
      split
      · exact absurd (hrest _ _ rfl) (by decide)
      · rfl
  | some ds =>
      obtain ⟨hne, hds⟩ := h ds rfl
      have hends : EndsRun Char.isDigit rest := hrest.mono fun c hc => by simp [hc]
      have hspan := span1_eq_some_iff.mpr ⟨span_append hds hends, hne⟩
      simp only [Option.elim_some, List.cons_append]
      rw [bind_of_eq_some (set_apply _ _), bind_of_eq_some hspan]
      rfl

theorem offsetSize_text {hour minute : Nat} (hhour : hour ≤ 23) (hminute : minute ≤ 59) :
    offsetSize ((padded 2 hour).toList ++ ':' :: (padded 2 minute).toList) =
      some (((hour * 60 + minute) * 60 : Int), []) := by
  have hends : EndsRun (fun c => c == ':' || isBlank c) (padded 2 minute).toList := by
    obtain ⟨d, ds, hcons⟩ := List.exists_cons_of_ne_nil (padded_ne_nil 2 minute)
    have hd : d.isDigit = true := isDigit_of_mem_padded d (by rw [hcons]; simp)
    rw [hcons]
    refine endsRun_cons ?_ ds
    rw [Text.isBlank_of_isDigit hd, Bool.or_false, beq_eq_false_iff_ne]
    rintro rfl
    cases hd
  have hspan : span (fun c => c == ':' || isBlank c) (':' :: (padded 2 minute).toList) =
      some ([':'], (padded 2 minute).toList) := span_append (s := [':']) (by simp) hends
  have hread := twoDigits_padded (by omega : minute < 100) []
  rw [List.append_nil] at hread
  unfold offsetSize
  rw [bind_of_eq_some (twoDigits_padded (by omega) _), bind_of_eq_some hspan, bind_of_eq_some hread,
    if_pos hminute]
  refine congrArg some (Prod.ext ?_ rfl)
  show (hour * 3600 + minute * 60 : Int) = _
  omega

theorem offset_plus (s : List Char) : offset ('+' :: s) = offsetSize s :=
  rfl

theorem offset_minus (s : List Char) :
    offset ('-' :: s) = (offsetSize s).map fun (n, rest) => (-n, rest) := by
  unfold offset
  simp only [bind_apply, get_apply, Option.bind_some, set_apply]
  cases offsetSize s <;> rfl

theorem offset_text (w : Offset.Spelling) : offset w.text = some (w.ahead * 60, []) := by
  cases w with
  | letter c hc =>
      simp only [List.mem_cons, List.not_mem_nil, or_false] at hc
      rcases hc with rfl | rfl <;> rfl
  | numeric sign hour minute hsign hhour hminute =>
      have hsize := offsetSize_text hhour hminute
      simp only [List.mem_cons, List.not_mem_nil, or_false] at hsign
      unfold Offset.Spelling.text Offset.Spelling.ahead
      rcases hsign with rfl | rfl
      · rw [offset_plus, hsize]
        rfl
      · rw [offset_minus, hsize]
        exact congrArg (fun n => some (n, [])) (Int.neg_mul _ _).symm

/-! ### Whole texts -/

/-- **A text that spells out date, time of day and offset stands for the point in time at which
    clocks with the offset show them**, and for nothing where there is no such point in time. -/
theorem ofText?_spelled {d : Date} (hd : d.isValid = true) {separator : Char}
    (hseparator : separator ∈ Moment.marks) (c : Clock.Spelling) (o : Offset.Spelling) :
    Timestamp.ofText? (String.ofList (d.text.toList ++ separator :: (c.text ++ o.text))) =
      Timestamp.ofLocal? d c.clock (o.ahead * 60) := by
  obtain ⟨hmonth, hday⟩ := Date.lt_of_isValid hd
  have hhour := c.hour_le
  have hminute := c.minute_le
  have hsecond := c.second_le
  have hyear (r : List Char) :=
    year_append d.year (endsRun_cons (by decide : '-'.isDigit = false) r)
  have hoffset {p : Char → Bool} (hp : ∀ c ∈ ['Z', 'z', '+', '-'], p c = false) :
      EndsRun p o.text := o.text.append_nil ▸ o.endsRun_text hp []
  have hblanks : blanks o.text = some ((), o.text) :=
    congrArg (fun r => some ((), r))
      ((hoffset (by decide)).dropWhile_append (s := []) (List.forall_mem_nil _))
  have hread : timestamp (d.text.toList ++ separator :: (c.text ++ o.text)) =
      (Timestamp.ofLocal? d c.clock (o.ahead * 60)).map (·, []) := by
    rw [d.toList_text]
    unfold Clock.Spelling.text
    simp only [List.append_assoc, List.cons_append]
    unfold timestamp
    rw [bind_of_eq_some (hyear _), bind_of_eq_some (mark_cons (by decide) _),
      bind_of_eq_some (field_padded hmonth _), bind_of_eq_some (mark_cons (by decide) _),
      bind_of_eq_some (field_padded hday _), bind_of_eq_some (Moment.satisfying_mark hseparator _),
      bind_of_eq_some (field_padded (by omega) _), bind_of_eq_some (mark_cons (by decide) _),
      bind_of_eq_some (field_padded (by omega) _), bind_of_eq_some (mark_cons (by decide) _),
      bind_of_eq_some (field_padded (by omega) _),
      bind_of_eq_some (fraction_append c.fraction_spec (hoffset (by decide))),
      bind_of_eq_some hblanks, bind_of_eq_some (offset_text o), bind_of_eq_some (blanks_apply [])]
    have hlocal : Timestamp.ofLocal? ⟨d.year, d.month, d.day⟩
        ⟨c.hour, c.minute, c.second, c.fraction.elim 0 nanosOf⟩ (o.ahead * 60) =
          Timestamp.ofLocal? d c.clock (o.ahead * 60) := rfl
    rw [hlocal]
    cases Timestamp.ofLocal? d c.clock (o.ahead * 60) <;> rfl
  unfold Timestamp.ofText? whole
  rw [String.toList_ofList, hread]
  cases Timestamp.ofLocal? d c.clock (o.ahead * 60) <;> rfl

end SeriesQuery.Timestamp.Lenient
