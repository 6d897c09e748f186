/-
Canonical duration tokens read back.

The canonical token of a duration is one group: the number of times that the largest unit
dividing the duration goes into it, and that unit.  So the token adds up to the duration, which
by `Duration.parse_eq_ok_iff` is all that reading it back takes.  Its characters are digits and
letters, none of them a blank, so blanks around it change nothing.
-/
import SeriesQuery.Proofs.Duration.Exact

namespace SeriesQuery

open Text

/-! ### Tokens hold no blanks -/

theorem TimeUnit.isBlank_of_mem_spelling {u : TimeUnit} {spelling : List Char} {c : Char}
    (hs : spelling ∈ u.spellings) (hc : c ∈ spelling) : isBlank c = false := by
  have hall : (u.spellings.all fun s => s.all fun c => !isBlank c) = true := by
    cases u <;> rfl
  simpa using List.all_eq_true.mp (List.all_eq_true.mp hall spelling hs) c hc

theorem Spells.isBlank_of_mem {gs : List TokenGroup} {s : List Char} (h : Spells gs s) :
    ∀ c ∈ s, isBlank c = false := by
  induction h with
  | nil =>
      intro c hc
      cases hc
  | cons hne hdigits hspelling hrest ih =>
      intro c hc
      rcases List.mem_append.mp hc with hc | hc
      · exact isBlank_of_isDigit (hdigits c hc)
      · rcases List.mem_append.mp hc with hc | hc
        · exact TimeUnit.isBlank_of_mem_spelling hspelling hc
        · exact ih c hc

/-! ### One group -/

theorem TimeUnit.symbol_mem_spellings (u : TimeUnit) : u.symbol.toList ∈ u.spellings := by
  cases u <;> decide

/-- A number in plain digits and the symbol of a unit are one group. -/
theorem spells_singleton (n : Nat) (u : TimeUnit) :
    Spells [⟨n, u⟩] (toString n ++ u.symbol).toList := by
  have hdigits : ∀ c ∈ Nat.toDigits 10 n, c.isDigit = true := by
    intro c hc
    exact Nat.isDigit_of_mem_toDigits (by decide) (by decide) hc
  have h := Spells.cons Nat.toDigits_ne_nil hdigits u.symbol_mem_spellings Spells.nil
  rw [Nat.ofDigitChars_ten_toDigits, List.append_nil] at h
  rw [String.toList_append, Nat.toString_eq_repr, Nat.toList_repr]
  exact h

namespace Duration

/-! ### The canonical token -/

/-- The unit of a canonical token is the largest that divides the duration. -/
theorem exists_largest_unit (d : Duration) (hd : d.nanos ≠ 0) :
    ∃ u ∈ canonicalUnits, d.token = toString (d.nanos / u.nanos) ++ u.symbol ∧
      u.nanos ∣ d.nanos ∧ ∀ v ∈ canonicalUnits, u.nanos < v.nanos → ¬ v.nanos ∣ d.nanos := by
  have hlast : canonicalUnits.find? (fun u => d.nanos % u.nanos == 0) ≠ none := by
    intro hnone
    have hns := List.find?_eq_none.mp hnone .nanosecond (by decide)
    exact hns (by simp [TimeUnit.nanos, Nat.mod_one])
  obtain ⟨u, hu⟩ := Option.ne_none_iff_exists'.mp hlast
  obtain ⟨hmod, before, after, hunits, hbefore⟩ := List.find?_eq_some_iff_append.mp hu
  refine ⟨u, List.mem_of_find?_eq_some hu, ?_, Nat.dvd_of_mod_eq_zero (by simpa using hmod), ?_⟩
  · unfold token
    rw [if_neg hd, hu]
    rfl
  · intro v hv hlt hdvd
    -- The units are tried from the largest on, so a larger one has been tried before.
    have hsorted : canonicalUnits.Pairwise fun u v => v.nanos < u.nanos := by decide
    rw [hunits] at hv hsorted
    rcases List.mem_append.mp hv with hv | hv
    · have htried := hbefore v hv
      simp [Nat.mod_eq_zero_of_dvd hdvd] at htried
    · rcases List.mem_cons.mp hv with rfl | hv
      · exact Nat.lt_irrefl _ hlt
      · have hsmaller := List.rel_of_pairwise_cons (List.pairwise_append.mp hsorted).2.1 hv
        omega

/-- The canonical token counts in a unit that divides the duration. -/
theorem exists_token_eq (d : Duration) :
    ∃ u ∈ canonicalUnits, u.nanos ∣ d.nanos ∧
      d.token = toString (d.nanos / u.nanos) ++ u.symbol := by
  by_cases hzero : d.nanos = 0
  · refine ⟨.second, by decide, ?_, ?_⟩
    · rw [hzero]
      exact Nat.dvd_zero _
    · unfold token
      rw [if_pos hzero, hzero]
      rfl
  · obtain ⟨u, hu, htoken, hdvd, -⟩ := d.exists_largest_unit hzero
    exact ⟨u, hu, hdvd, htoken⟩

/-- The canonical token adds up to the duration. -/
theorem exists_isToken_token (d : Duration) :
    ∃ gs, IsToken gs d.token.toList ∧ TokenGroup.total gs = d.nanos := by
  obtain ⟨u, -, hdvd, htoken⟩ := d.exists_token_eq
  refine ⟨[⟨d.nanos / u.nanos, u⟩], ⟨List.cons_ne_nil _ _, ?_⟩, ?_⟩
  · rw [htoken]
    exact spells_singleton _ _
  · show d.nanos / u.nanos * u.nanos + 0 = d.nanos
    rw [Nat.add_zero, Nat.div_mul_cancel hdvd]

theorem parse_surrounded_token (d : Duration) {before after : String}
    (hb : ∀ c ∈ before.toList, isBlank c = true) (ha : ∀ c ∈ after.toList, isBlank c = true) :
    parse (before ++ d.token ++ after) = .ok d := by
  obtain ⟨gs, hgs, htotal⟩ := d.exists_isToken_token
  refine parse_eq_ok_iff.mpr ⟨gs, ?_, htotal⟩
  rw [String.toList_append, String.toList_append, trim_surrounded hb hgs.2.isBlank_of_mem ha]
  exact hgs

theorem parse_token (d : Duration) : parse d.token = .ok d := by
  have hnone : ∀ c ∈ "".toList, isBlank c = true := by
    intro c hc
    cases hc
  have h := d.parse_surrounded_token hnone hnone
  rwa [String.empty_append, String.append_empty] at h

theorem token_injective : Function.Injective token := by
  intro d e h
  have hd := d.parse_token
  rw [h, e.parse_token] at hd
  exact (Except.ok.inj hd).symm

/--
**The canonical token reads back.**  Blanks around it do not count, no two durations share one,
and a token that is read and written again is from then on its own canonical token.
-/
theorem token_roundtrip :
    (∀ d, parse d.token = .ok d) ∧
    (∀ (d : Duration) (before after : String), (∀ c ∈ before.toList, isBlank c = true) →
      (∀ c ∈ after.toList, isBlank c = true) → parse (before ++ d.token ++ after) = .ok d) ∧
    (∀ d e : Duration, d.token = e.token → d = e) ∧
    (∀ t s, (parse t).map token = .ok s →
      parse s = parse t ∧ (parse s).map token = .ok s) := by
  refine ⟨parse_token, fun d before after hb ha => d.parse_surrounded_token hb ha,
    fun d e h => token_injective h, ?_⟩
  intro t s h
  cases ht : parse t with
  | error e =>
      rw [ht] at h
      cases h
  | ok d =>
      rw [ht] at h
      cases h
      rw [parse_token]
      exact ⟨rfl, rfl⟩

/-- The longest duration reads back through a tab and two spaces. -/
theorem parse_longest_token :
    (∀ c ∈ "\t".toList, isBlank c = true) ∧ (∀ c ∈ "  ".toList, isBlank c = true) ∧
      parse ("\t" ++ token ⟨18446744073709551615999999999, by decide⟩ ++ "  ") =
        .ok ⟨18446744073709551615999999999, by decide⟩ :=
  ⟨by simp [isBlank], by simp [isBlank],
    token_roundtrip.2.1 ⟨18446744073709551615999999999, by decide⟩ "\t" "  "
      (by simp [isBlank]) (by simp [isBlank])⟩

end Duration
end SeriesQuery
