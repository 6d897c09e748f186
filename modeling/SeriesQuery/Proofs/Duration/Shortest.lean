/-
Canonical duration tokens are the shortest.

Take the tokens of a duration that are one group and count in a unit up to the hour.  A unit
larger than that of the canonical token does not divide the duration.  In the same unit the
count is the same, so only leading zeros can be added.  In a smaller unit the count is larger by
the quotient of the two units, sixty at least, and that takes more further digits than a shorter
symbol could save: from `ms` to `u` the symbol loses one character and the count gains three
digits.
-/
import SeriesQuery.Proofs.Duration.Canonical
import SeriesQuery.Proofs.Text.DigitRuns

namespace SeriesQuery

open Text

/-! ### Smaller units -/

/-- To a smaller unit the count grows tenfold at least, and tenfold more for each character that
    the symbol gets shorter. -/
theorem TimeUnit.nanos_growth {u v : TimeUnit} (hu : u ∈ Duration.canonicalUnits)
    (hv : v ∈ Duration.canonicalUnits) (h : v.nanos < u.nanos) :
    v.nanos * 10 ^ (u.symbol.length + 1) ≤ u.nanos * 10 ^ v.symbol.length := by
  have hall : ∀ u ∈ Duration.canonicalUnits, ∀ v ∈ Duration.canonicalUnits, v.nanos < u.nanos →
      v.nanos * 10 ^ (u.symbol.length + 1) ≤ u.nanos * 10 ^ v.symbol.length := by decide
  exact hall u hu v hv h

theorem TimeUnit.eq_of_nanos_eq {u v : TimeUnit} (h : u.nanos = v.nanos) : u = v := by
  cases u <;> cases v <;> first | rfl | exact absurd h (by decide)

/-- A count of a smaller unit is longer, the symbols included. -/
theorem length_lt_of_nanos_lt {u v : TimeUnit} (hu : u ∈ Duration.canonicalUnits)
    (hv : v ∈ Duration.canonicalUnits) (h : v.nanos < u.nanos) {n : Nat} (hn : n ≠ 0)
    {ds : List Char} (hds : ∀ c ∈ ds, c.isDigit = true)
    (hsame : n * u.nanos = Nat.ofDigitChars 10 ds 0 * v.nanos) :
    (Nat.toDigits 10 n).length + u.symbol.length < ds.length + v.symbol.length := by
  obtain ⟨k, hk⟩ := Nat.exists_eq_add_one.mpr (Nat.length_toDigits_pos (b := 10) (n := n))
  -- The number of digits bounds the one count from below and the other from above.
  have hlow : v.nanos * 10 ^ (k + (u.symbol.length + 1)) ≤
      n * u.nanos * 10 ^ v.symbol.length := by
    calc v.nanos * 10 ^ (k + (u.symbol.length + 1))
        = 10 ^ k * (v.nanos * 10 ^ (u.symbol.length + 1)) := by
          rw [Nat.pow_add, Nat.mul_left_comm]
      _ ≤ n * (u.nanos * 10 ^ v.symbol.length) :=
          Nat.mul_le_mul (pow_le_of_length_toDigits hn hk) (TimeUnit.nanos_growth hu hv h)
      _ = n * u.nanos * 10 ^ v.symbol.length := (Nat.mul_assoc ..).symm
  have hhigh : n * u.nanos * 10 ^ v.symbol.length <
      v.nanos * 10 ^ (ds.length + v.symbol.length) := by
    rw [hsame, Nat.pow_add, Nat.mul_comm _ v.nanos, Nat.mul_assoc]
    refine Nat.mul_lt_mul_of_pos_left ?_ v.nanos_pos
    exact Nat.mul_lt_mul_of_pos_right (ofDigitChars_lt hds) (Nat.pow_pos (by decide))
  have hpow := Nat.lt_of_mul_lt_mul_left (Nat.lt_of_le_of_lt hlow hhigh)
  have hlengths := (Nat.pow_lt_pow_iff_right (by decide : 1 < 10)).mp hpow
  omega

namespace Duration

/-! ### Tokens of one group -/

/-- A token of one group that counts in a unit of canonical tokens. -/
def IsSimple (t : String) : Prop :=
  ∃ digits : List Char, digits ≠ [] ∧ (∀ c ∈ digits, c.isDigit = true) ∧
    ∃ u ∈ canonicalUnits, t = String.ofList digits ++ u.symbol

/-- A single group is read as so many units. -/
theorem parse_group_eq_ok_iff {digits : List Char} (hne : digits ≠ [])
    (hdigits : ∀ c ∈ digits, c.isDigit = true) (u : TimeUnit) {d : Duration} :
    parse (String.ofList digits ++ u.symbol) = .ok d ↔
      Nat.ofDigitChars 10 digits 0 * u.nanos = d.nanos := by
  have hgroup : Spells [⟨Nat.ofDigitChars 10 digits 0, u⟩]
      (String.ofList digits ++ u.symbol).toList := by
    have hspells := Spells.cons hne hdigits u.symbol_mem_spellings Spells.nil
    rw [List.append_nil] at hspells
    rwa [String.toList_append, String.toList_ofList]
  rw [parse_eq_ok_iff, trim_of_not_blank hgroup.isBlank_of_mem]
  constructor
  · rintro ⟨gs, hgs, htotal⟩
    rw [← htotal, hgs.2.unique hgroup]
    rfl
  · intro hnanos
    exact ⟨_, ⟨List.cons_ne_nil _ _, hgroup⟩, hnanos⟩

/--
**The canonical token is the shortest.**  The canonical token of a duration that is not empty is
a number of units, the unit is the largest up to the hour that divides the duration, and every
other number of such units that is read as the duration has more characters.
-/
theorem token_shortest (d : Duration) (hd : d.nanos ≠ 0) :
    (∃ u ∈ canonicalUnits, ∃ n : Nat, d.token = toString n ++ u.symbol ∧ n * u.nanos = d.nanos ∧
      ∀ v ∈ canonicalUnits, u.nanos < v.nanos → ¬ v.nanos ∣ d.nanos) ∧
    ∀ t, IsSimple t → parse t = .ok d → t ≠ d.token → d.token.length < t.length := by
  obtain ⟨u, hu, htoken, hdvd, hlargest⟩ := d.exists_largest_unit hd
  have hcount : d.nanos / u.nanos * u.nanos = d.nanos := Nat.div_mul_cancel hdvd
  refine ⟨⟨u, hu, d.nanos / u.nanos, htoken, hcount, hlargest⟩, ?_⟩
  rintro t ⟨digits, hne, hdigits, v, hv, rfl⟩ hparse hother
  have hnanos := (parse_group_eq_ok_iff hne hdigits v).mp hparse
  have hlength : d.token.length =
      (Nat.toDigits 10 (d.nanos / u.nanos)).length + u.symbol.length := by
    rw [htoken, String.length_append, Nat.toString_eq_ofList_toDigits, String.length_ofList]
  rw [hlength, String.length_append, String.length_ofList]
  rcases Nat.lt_trichotomy u.nanos v.nanos with hlarger | hequal | hsmaller
  · exact absurd (hnanos ▸ Nat.dvd_mul_left _ _) (hlargest v hv hlarger)
  · obtain rfl := TimeUnit.eq_of_nanos_eq hequal
    have hsame : d.nanos / u.nanos = Nat.ofDigitChars 10 digits 0 := by
      rw [← hnanos, Nat.mul_div_cancel _ u.nanos_pos]
    rw [hsame]
    refine Nat.add_lt_add_right (length_toDigits_lt hne hdigits fun hplain => hother ?_) _
    rw [htoken, hsame, Nat.toString_eq_ofList_toDigits, ← hplain]
  · have hn : d.nanos / u.nanos ≠ 0 := by
      intro hzero
      rw [hzero, Nat.zero_mul] at hcount
      exact hd hcount.symm
    exact length_lt_of_nanos_lt hu hv hsmaller hn hdigits (hcount.trans hnanos.symm)

/-- Ninety minutes as so many seconds. -/
theorem token_shortest_of_seconds :
    let d : Duration := ⟨90 * TimeUnit.minute.nanos, by decide⟩
    d.nanos ≠ 0 ∧ IsSimple "5400s" ∧ parse "5400s" = .ok d ∧ "5400s" ≠ d.token ∧
      d.token.length < "5400s".length := by
  intro d
  have hd : d.nanos ≠ 0 := by decide
  have hne : ['5', '4', '0', '0'] ≠ [] := by decide
  have hdigits : ∀ c ∈ ['5', '4', '0', '0'], c.isDigit = true := List.all_eq_true.mp rfl
  have hsimple : IsSimple "5400s" := ⟨_, hne, hdigits, .second, by decide, by decide⟩
  have hparse : parse "5400s" = .ok d :=
    (parse_group_eq_ok_iff hne hdigits .second).mpr (by decide)
  have hother : "5400s" ≠ d.token := by decide
  exact ⟨hd, hsimple, hparse, hother, (token_shortest d hd).2 _ hsimple hparse hother⟩

end Duration
end SeriesQuery
