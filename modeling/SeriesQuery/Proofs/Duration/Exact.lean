/-
Reading a duration token is exact.

Reading counts in 128 bits and guards every step: the number of a group, the group itself and
the sum.  None of the guards can change an answer.  A duration has fewer than `2 ^ 64` seconds,
so the groups of a token that stands for one, and every sum of some of them, stay far below
`2 ^ 128`; and a sum that is held at the largest count is still too long for a duration.
-/
import SeriesQuery.Proofs.Duration.Grammar

namespace SeriesQuery

open Text

namespace Duration

/-! ### All the groups of a text -/

/-- Whatever the groups of a text are read as, the grammar has it, and each length is exact. -/
theorem spells_of_repeated : ∀ {s rest : List Char} {counts : List Count},
    Reader.repeated group s = some (counts, rest) →
      ∃ gs written, s = written ++ rest ∧ Spells gs written ∧
        counts.map Count.toNat = gs.map TokenGroup.nanos := by
  intro s
  induction hn : s.length using Nat.strongRecOn generalizing s with
  | ind n ih =>
      subst hn
      intro rest counts h
      rw [Reader.repeated] at h
      split at h
      · rename_i a r hgroup
        split at h
        · rename_i hlt
          obtain ⟨⟨more, rest'⟩, hmore, heq⟩ := Option.map_eq_some_iff.mp h
          cases heq
          obtain ⟨digits, spelling, unit, hne, hdigits, hspelling, hs, ha⟩ :=
            spells_of_group hgroup
          obtain ⟨gs, written, hr, hspells, hcounts⟩ := ih _ hlt rfl hmore
          refine ⟨_, _, ?_, Spells.cons hne hdigits hspelling hspells, ?_⟩
          · rw [hs, hr]
            simp only [List.append_assoc]
          · simp only [List.map_cons, ha, hcounts]
        · cases h
          exact ⟨[], [], rfl, Spells.nil, rfl⟩
      · cases h
        exact ⟨[], [], rfl, Spells.nil, rfl⟩

/-- A group that 128 bits hold is read whatever spelling it has. -/
theorem group_eq_some {u : TimeUnit} {digits spelling rest : List Char} (hne : digits ≠ [])
    (hdigits : ∀ c ∈ digits, c.isDigit = true) (hs : spelling ∈ u.spellings)
    (hr : DigitNext rest)
    (hlt : TokenGroup.nanos ⟨Nat.ofDigitChars 10 digits 0, u⟩ < Count.size) :
    ∃ a : Count, group (digits ++ (spelling ++ rest)) = some (a, rest) ∧
      a.toNat = TokenGroup.nanos ⟨Nat.ofDigitChars 10 digits 0, u⟩ := by
  have hnumber : Nat.ofDigitChars 10 digits 0 < Count.size :=
    Nat.lt_of_le_of_lt (Nat.le_mul_of_pos_right _ u.nanos_pos) hlt
  have hfirst : Count.ofNat? (Nat.ofDigitChars 10 digits 0) = some ⟨_, hnumber⟩ :=
    Count.ofNat?_eq_some_iff.mpr rfl
  have hsecond : Count.scale? ⟨_, hnumber⟩ u = some ⟨_, hlt⟩ :=
    Count.ofNat?_eq_some_iff.mpr rfl
  refine ⟨⟨_, hlt⟩, ?_, rfl⟩
  rw [group_append hne hdigits hs hr, hfirst, Option.bind_some, hsecond, Option.map_some]

/-- Groups that 128 bits hold are all read, and nothing is left. -/
theorem repeated_of_spells {gs : List TokenGroup} {s : List Char} (h : Spells gs s)
    (hlt : ∀ g ∈ gs, g.nanos < Count.size) :
    ∃ counts, Reader.repeated group s = some (counts, []) ∧
      counts.map Count.toNat = gs.map TokenGroup.nanos := by
  induction h with
  | nil => exact ⟨[], Reader.repeated_of_eq_none rfl, rfl⟩
  | @cons digits spelling rest unit gs hne hdigits hspelling hrest ih =>
      obtain ⟨a, hgroup, ha⟩ :=
        group_eq_some hne hdigits hspelling hrest.digitNext (hlt _ (by simp))
      obtain ⟨counts, hcounts, heq⟩ := ih (fun g hg => hlt g (by simp [hg]))
      have hshorter : rest.length < (digits ++ (spelling ++ rest)).length := by
        have := List.length_pos_iff.mpr hne
        simp only [List.length_append]
        omega
      refine ⟨a :: counts, ?_, ?_⟩
      · rw [Reader.repeated_of_eq_some hgroup hshorter, hcounts]
        rfl
      · rw [List.map_cons, List.map_cons, ha, heq]

/-! ### The sum -/

/-- Adding up goes wrong only where the whole sum takes more than 128 bits. -/
theorem toNat_foldl_add (counts : List Count) :
    ∀ a : Count, (counts.foldl Count.add a).toNat =
      min (a.toNat + (counts.map Count.toNat).sum) (Count.size - 1) := by
  induction counts with
  | nil =>
      intro a
      have := a.toNat_lt
      simp only [List.foldl_nil, List.map_nil, List.sum_nil]
      omega
  | cons b counts ih =>
      intro a
      rw [List.foldl_cons, ih, Count.toNat_add, List.map_cons, List.sum_cons]
      omega

theorem isToken_of_total? {s : List Char} {a : Count} (h : total? s = some a) :
    ∃ gs, IsToken gs s ∧ a.toNat = min (TokenGroup.total gs) (Count.size - 1) := by
  unfold total? at h
  split at h
  · cases h
  · cases h
  · rename_i counts hne hcounts
    cases h
    obtain ⟨gs, written, hs, hspells, heq⟩ :=
      spells_of_repeated (Reader.whole_eq_some_iff.mp hcounts)
    rw [List.append_nil] at hs
    subst hs
    refine ⟨gs, ⟨?_, hspells⟩, ?_⟩
    · rintro rfl
      exact hne (by simpa using heq)
    · rw [toNat_foldl_add, heq, Count.toNat_zero, Nat.zero_add]
      rfl

theorem total?_of_isToken {gs : List TokenGroup} {s : List Char} (h : IsToken gs s)
    (hlt : TokenGroup.total gs < Count.size) :
    ∃ a, total? s = some a ∧ a.toNat = TokenGroup.total gs := by
  have hparts : ∀ g ∈ gs, g.nanos < Count.size := by
    intro g hg
    exact Nat.lt_of_le_of_lt (TokenGroup.nanos_le_total hg) hlt
  obtain ⟨counts, hcounts, heq⟩ := repeated_of_spells h.2 hparts
  have hsum : (counts.foldl Count.add .zero).toNat = TokenGroup.total gs := by
    rw [toNat_foldl_add, heq, Count.toNat_zero, Nat.zero_add]
    exact Nat.min_eq_left (by show TokenGroup.total gs ≤ _; omega)
  refine ⟨counts.foldl Count.add .zero, ?_, hsum⟩
  unfold total?
  rw [Reader.whole_eq_some_iff.mpr hcounts]
  cases counts with
  | nil => exact absurd (by simpa using heq.symm) h.1
  | cons a counts => rfl

/-! ### The duration -/

/-- **A text stands for a duration exactly when it is a token that adds up to it.** -/
theorem ofToken?_eq_some_iff {t : String} {d : Duration} :
    ofToken? t = some d ↔
      ∃ gs, IsToken gs (trim t.toList) ∧ TokenGroup.total gs = d.nanos := by
  have hd := d.nanos_lt
  have hsize : UInt64.size * 1000000000 < Count.size := by decide
  constructor
  · intro h
    obtain ⟨a, ha, hof⟩ := Option.bind_eq_some_iff.mp h
    obtain ⟨gs, hgs, htotal⟩ := isToken_of_total? ha
    have hnanos := ofNanos?_eq_some_iff.mp hof
    -- A sum at the largest count would be no duration, so this one is exact.
    exact ⟨gs, hgs, by omega⟩
  · rintro ⟨gs, hgs, htotal⟩
    obtain ⟨a, ha, hnat⟩ := total?_of_isToken hgs (by omega)
    exact Option.bind_eq_some_iff.mpr ⟨a, ha, ofNanos?_eq_some_iff.mpr (by omega)⟩

theorem parse_eq_ok_iff {t : String} {d : Duration} :
    parse t = .ok d ↔ ∃ gs, IsToken gs (trim t.toList) ∧ TokenGroup.total gs = d.nanos := by
  rw [← ofToken?_eq_some_iff]
  unfold parse
  cases ofToken? t <;> simp

theorem parse_eq_error_iff {t : String} {e : ComposeError} :
    parse t = .error e ↔ e = .invalidDuration t ∧ ofToken? t = none := by
  unfold parse
  cases ofToken? t <;> simp [eq_comm]

end Duration

/-! ### A text is a token in one way only -/

theorem Spells.unique {gs : List TokenGroup} {s : List Char} (h : Spells gs s) :
    ∀ {gs' : List TokenGroup}, Spells gs' s → gs = gs' := by
  induction h with
  | nil =>
      intro gs' h'
      generalize hs : ([] : List Char) = s at h'
      cases h' with
      | nil => rfl
      | cons hne => simp [hne] at hs
  | @cons digits spelling rest unit gs hne hdigits hspelling hrest ih =>
      intro gs' h'
      generalize hs : digits ++ (spelling ++ rest) = s at h'
      cases h' with
      | nil => simp [hne] at hs
      | @cons digits' spelling' rest' unit' gs' hne' hdigits' hspelling' hrest' =>
          -- Both ways agree on where the digits end, and then on the unit behind them.
          have htake := (span_digits rest hdigits hspelling).1
          have hdrop := (span_digits rest hdigits hspelling).2
          rw [hs] at htake hdrop
          rw [(span_digits rest' hdigits' hspelling').1] at htake
          rw [(span_digits rest' hdigits' hspelling').2] at hdrop
          have hread := TimeUnit.read?_spelling hspelling hrest.digitNext
          rw [← hdrop, TimeUnit.read?_spelling hspelling' hrest'.digitNext] at hread
          cases hread
          rw [htake, ih hrest']

namespace Duration

/--
**Reading is exact.**  A text is read as a duration exactly when, trimmed, it is a token whose
sum is below `2 ^ 64` seconds, and then as that many nanoseconds.  For any other text reading
fails and names the text as it was given.  No text is a token in two ways.
-/
theorem parse_exact (t : String) :
    (∀ d, parse t = .ok d ↔
      ∃ gs, IsToken gs (trim t.toList) ∧ TokenGroup.total gs < 2 ^ 64 * 10 ^ 9 ∧
        d.seconds = TokenGroup.total gs / 10 ^ 9 ∧
        d.subsecondNanos = TokenGroup.total gs % 10 ^ 9) ∧
    (∀ e, parse t = .error e ↔
      e = .invalidDuration t ∧
        ∀ gs, IsToken gs (trim t.toList) → 2 ^ 64 * 10 ^ 9 ≤ TokenGroup.total gs) ∧
    (∀ gs gs', IsToken gs (trim t.toList) → IsToken gs' (trim t.toList) → gs = gs') := by
  have hsize : UInt64.size = 2 ^ 64 := rfl
  refine ⟨?_, ?_, fun gs gs' h h' => h.2.unique h'.2⟩
  · intro d
    rw [parse_eq_ok_iff]
    refine exists_congr fun gs => and_congr_right fun _ => ?_
    have hd := d.nanos_lt
    unfold seconds subsecondNanos
    omega
  · intro e
    rw [parse_eq_error_iff]
    refine and_congr_right fun _ => ?_
    constructor
    · intro hnone gs hgs
      refine Nat.le_of_not_lt fun hlt => ?_
      have hsome : ofToken? t = some ⟨TokenGroup.total gs, hlt⟩ :=
        ofToken?_eq_some_iff.mpr ⟨gs, hgs, rfl⟩
      rw [hsome] at hnone
      cases hnone
    · intro hall
      cases hsome : ofToken? t with
      | none => rfl
      | some d =>
          obtain ⟨gs, hgs, htotal⟩ := ofToken?_eq_some_iff.mp hsome
          have := hall gs hgs
          have := d.nanos_lt
          omega

example : (parse " 1w2d3h4m5s6ms7u8µ9ns\n").map nanos = .ok 788645006015009 := by decide +kernel

end Duration
end SeriesQuery
