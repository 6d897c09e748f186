/-
When rounding overflows.

A fraction is rounded on the grid of the unit that its size calls for, so that the rounded
mantissa has the format's precision.  The unit is too large exactly when the fraction is, save in
one case: under the largest unit a mantissa may still be rounded up to a power of two, which is
the next unit's.  Half a unit above the largest number is a tie with an odd mantissa below it, so
it goes up.  This is the threshold: from there on rounding gives no number, and below it always
one.
-/
import Mathlib.Algebra.Order.Field.Power
import Mathlib.Algebra.Order.Field.Rat
import Mathlib.Data.Rat.Cast.Order
import Mathlib.Tactic.FieldSimp
import Mathlib.Tactic.Linarith
import Mathlib.Tactic.NormNum
import Mathlib.Tactic.Positivity
import Mathlib.Tactic.Ring
import SeriesQuery.Floating.Numeral

namespace SeriesQuery

/-! ### Powers with a sign

The definitions keep to natural numbers, so a power with a signed exponent stands on one side of a
fraction or on the other.
-/

theorem pow_toNat_eq_zpow_mul {b : ℚ} (hb : b ≠ 0) (e : ℤ) :
    b ^ e.toNat = b ^ e * b ^ (-e).toNat := by
  rw [← zpow_natCast, ← zpow_natCast, ← zpow_add₀ hb]
  congr 1
  omega

/-- A fraction in units of `b ^ e`. -/
theorem div_in_units {b : ℚ} (hb : b ≠ 0) (num den : ℚ) (e : ℤ) :
    num * b ^ (-e).toNat / (den * b ^ e.toNat) = num / den / b ^ e := by
  have hpow : b ^ (-e).toNat ≠ 0 := pow_ne_zero _ hb
  have hunit : b ^ e ≠ 0 := zpow_ne_zero _ hb
  rw [pow_toNat_eq_zpow_mul hb e, ← mul_assoc, mul_div_mul_right _ _ hpow, div_div]

/-! ### Rounding to a whole number -/

/-- Below an even number, what is rounded to it is what is at most a half away. -/
theorem roundHalfEven_eq_iff {num den n : Nat} (hden : 0 < den) (heven : n % 2 = 0)
    (hlt : num < n * den) : roundHalfEven num den = n ↔ 2 * (n * den) ≤ 2 * num + den := by
  have hdivmod : den * (num / den) + num % den = num := Nat.div_add_mod num den
  have hmod : num % den < den := Nat.mod_lt num hden
  have hquotient : num / den < n := (Nat.div_lt_iff_lt_mul hden).mpr hlt
  simp only [roundHalfEven]
  generalize num / den = q at *
  generalize num % den = r at *
  obtain ⟨k, rfl⟩ : ∃ k, n = q + 1 + k := ⟨n - (q + 1), by omega⟩
  have hproduct : (q + 1 + k) * den = den * q + den + k * den := by ring
  cases k with
  | zero =>
      -- `q` is odd, so a tie goes up
      have hodd : q % 2 = 1 := by omega
      rw [Nat.zero_mul] at hproduct
      by_cases hdown : 2 * r < den
      · rw [if_pos hdown]
        omega
      · rw [if_neg hdown]
        split <;> omega
  | succ k =>
      -- the fraction is more than a whole number away
      have hfar : (k + 1) * den = k * den + den := by ring
      have hle : (if 2 * r < den then q else if den < 2 * r then q + 1 else q + q % 2) ≤ q + 1 := by
        split
        · omega
        · split <;> omega
      constructor
      · intro h
        omega
      · intro h
        omega

theorem roundHalfEven_le {num den k : Nat} (hden : 0 < den) (hlt : num < k * den) :
    roundHalfEven num den ≤ k := by
  have hq : num / den + 1 ≤ k := (Nat.div_lt_iff_lt_mul hden).mpr hlt
  unfold roundHalfEven
  dsimp only
  split
  · omega
  · split <;> omega

/-! ### The size of a fraction -/

/-- A fraction below `2 ^ k` units is so in whole numbers of units as well. -/
theorem inUnits_lt {num den : Nat} (hden : den ≠ 0) {e : ℤ} {k : Nat}
    (hlt : (num / den : ℚ) < 2 ^ (e + k)) :
    num * 2 ^ (-e).toNat < 2 ^ k * (den * 2 ^ e.toNat) := by
  have hunit : (0 : ℚ) < 2 ^ e := zpow_pos two_pos _
  have hpos : 0 < den * 2 ^ e.toNat :=
    Nat.mul_pos (Nat.pos_of_ne_zero hden) (Nat.two_pow_pos _)
  have hposCast : (0 : ℚ) < (den * 2 ^ e.toNat : Nat) := by exact_mod_cast hpos
  have hratio : ((num * 2 ^ (-e).toNat : Nat) / (den * 2 ^ e.toNat : Nat) : ℚ) < 2 ^ k := by
    push_cast
    rw [div_in_units two_ne_zero, div_lt_iff₀ hunit, mul_comm, ← zpow_natCast,
      ← zpow_add₀ two_ne_zero]
    exact hlt
  rw [div_lt_iff₀ hposCast] at hratio
  exact_mod_cast hratio

theorem log2_spec {n : Nat} (hn : n ≠ 0) :
    (2 : ℚ) ^ (n.log2 : ℤ) ≤ n ∧ (n : ℚ) < 2 ^ ((n.log2 : ℤ) + 1) := by
  constructor
  · rw [zpow_natCast]
    exact_mod_cast Nat.log2_self_le hn
  · rw [← Nat.cast_succ, zpow_natCast]
    exact_mod_cast Nat.lt_log2_self

/-- The power of two that the definition tries first is at most one too high. -/
theorem floorLog2_spec {num den : Nat} (hnum : num ≠ 0) (hden : den ≠ 0) :
    (2 : ℚ) ^ floorLog2 num den ≤ num / den ∧ (num / den : ℚ) < 2 ^ (floorLog2 num den + 1) := by
  have htwo : (2 : ℚ) ≠ 0 := two_ne_zero
  have hdenpos : (0 : ℚ) < den := by exact_mod_cast Nat.pos_of_ne_zero hden
  obtain ⟨hnumlow, hnumhigh⟩ := log2_spec hnum
  obtain ⟨hdenlow, hdenhigh⟩ := log2_spec hden
  unfold floorLog2
  simp only [Nat.pow_eq]
  obtain ⟨l, hl⟩ : ∃ l : ℤ, (num.log2 : ℤ) - den.log2 = l := ⟨_, rfl⟩
  rw [hl]
  have hhigh : (num / den : ℚ) < 2 ^ (l + 1) := by
    have hsplit : (2 : ℚ) ^ (l + 1) * 2 ^ (den.log2 : ℤ) = 2 ^ ((num.log2 : ℤ) + 1) := by
      rw [← zpow_add₀ htwo]
      congr 1
      omega
    rw [div_lt_iff₀ hdenpos]
    calc (num : ℚ) < 2 ^ (l + 1) * 2 ^ (den.log2 : ℤ) := hsplit ▸ hnumhigh
      _ ≤ 2 ^ (l + 1) * den := by gcongr
  have hlow : (2 : ℚ) ^ (l - 1) ≤ num / den := by
    have hsplit : (2 : ℚ) ^ (l - 1) * 2 ^ ((den.log2 : ℤ) + 1) = 2 ^ (num.log2 : ℤ) := by
      rw [← zpow_add₀ htwo]
      congr 1
      omega
    rw [le_div_iff₀ hdenpos]
    calc (2 : ℚ) ^ (l - 1) * den ≤ 2 ^ (l - 1) * 2 ^ ((den.log2 : ℤ) + 1) := by gcongr
      _ = 2 ^ (num.log2 : ℤ) := hsplit
      _ ≤ num := hnumlow
  have htried : den * 2 ^ l.toNat ≤ num * 2 ^ (-l).toNat ↔ (2 : ℚ) ^ l ≤ num / den := by
    have hpow : (0 : ℚ) < 2 ^ (-l).toNat := by positivity
    rw [← Nat.cast_le (α := ℚ), le_div_iff₀ hdenpos, mul_comm _ (den : ℚ)]
    push_cast
    rw [pow_toNat_eq_zpow_mul htwo l, ← mul_assoc]
    exact mul_le_mul_iff_left₀ hpow
  split
  · rename_i h
    exact ⟨htried.mp h, hhigh⟩
  · rename_i h
    refine ⟨hlow, ?_⟩
    rw [Int.sub_add_cancel]
    exact not_le.mp (mt htried.mpr h)

namespace Format

/-! ### The threshold -/

/-- Half a unit above the largest number of the format. -/
def overflow (f : Format) : ℚ :=
  (2 ^ f.precision - 1 / 2) * 2 ^ f.maxExponent

theorem overflow_binary64 : overflow .binary64 = 2 ^ 1024 - 2 ^ 970 := by
  -- powers too large to be evaluated, as multiples of the one they share
  have hunit : (2 : ℚ) ^ maxExponent .binary64 = 2 ^ 970 * 2 := by
    show (2 : ℚ) ^ (970 + 1 : ℤ) = _
    rw [zpow_add_one₀ two_ne_zero, zpow_ofNat]
  have habove : (2 : ℚ) ^ 1024 = 2 ^ 54 * 2 ^ 970 := by rw [← pow_add]
  rw [overflow, precision, hunit, habove]
  generalize (2 : ℚ) ^ 970 = unit
  ring

theorem one_le_overflow (f : Format) : 1 ≤ f.overflow := by
  have hexponent : 0 ≤ f.maxExponent := by cases f <;> decide
  have hunit : (1 : ℚ) ≤ 2 ^ f.maxExponent := one_le_zpow₀ one_le_two hexponent
  have hmantissa : (1 : ℚ) ≤ 2 ^ f.precision - 1 / 2 := by cases f <;> norm_num [precision]
  calc (1 : ℚ) = 1 * 1 := (one_mul 1).symm
    _ ≤ f.overflow := by
      unfold overflow
      gcongr

theorem overflow_pos (f : Format) : 0 < f.overflow :=
  zero_lt_one.trans_le f.one_le_overflow

theorem overflow_le (f : Format) : f.overflow ≤ overflow .binary64 := by
  have hprecision : f.precision ≤ precision .binary64 := by cases f <;> decide
  have hexponent : f.maxExponent ≤ maxExponent .binary64 := by cases f <;> decide
  have hhalf : (0 : ℚ) ≤ 2 ^ precision .binary64 - 1 / 2 := by norm_num [precision]
  unfold overflow
  gcongr <;> norm_num

/-- No format has a number of more than 400 places. -/
theorem overflow_lt (f : Format) : f.overflow < 10 ^ 400 := by
  calc f.overflow ≤ 2 ^ 1024 - 2 ^ 970 := overflow_binary64 ▸ f.overflow_le
    _ < 2 ^ 1024 := sub_lt_self _ (by positivity)
    _ ≤ 2 ^ (3 * 400) := pow_le_pow_right₀ one_le_two (by norm_num)
    _ = 8 ^ 400 := by rw [pow_mul]; norm_num
    _ < 10 ^ 400 := pow_lt_pow_left₀ (by norm_num) (by norm_num) (by norm_num)

/-- The threshold is in the range of sizes that the largest unit is for. -/
theorem overflow_spec (f : Format) :
    (2 : ℚ) ^ (f.maxExponent + f.precision - 1) ≤ f.overflow ∧
      f.overflow < 2 ^ (f.maxExponent + f.precision) := by
  have hunit : (0 : ℚ) < 2 ^ f.maxExponent := zpow_pos two_pos _
  have hhigh : (2 : ℚ) ^ (f.maxExponent + f.precision) = 2 ^ f.precision * 2 ^ f.maxExponent := by
    rw [zpow_add₀ two_ne_zero, zpow_natCast, mul_comm]
  have hlow : (2 : ℚ) ^ (f.maxExponent + f.precision - 1) =
      2 ^ f.precision / 2 * 2 ^ f.maxExponent := by
    rw [zpow_sub_one₀ two_ne_zero, hhigh]
    ring
  have hone : (1 : ℚ) ≤ 2 ^ f.precision := one_le_pow₀ one_le_two
  rw [hlow, hhigh]
  unfold overflow
  constructor
  · gcongr
    linarith
  · gcongr
    linarith

/-! ### Rounding to a number of the format -/

/-- The exponent of the unit in which a fraction is rounded. -/
def unitExponent (f : Format) (num den : Nat) : Int :=
  max (floorLog2 num den - f.precision + 1) f.minExponent

/-- The number of units that a fraction is rounded to. -/
def units (f : Format) (num den : Nat) : Nat :=
  let e := f.unitExponent num den
  roundHalfEven (num * 2 ^ (-e).toNat) (den * 2 ^ e.toNat)

/-- The units as a number of the format, if there were no largest exponent. -/
def rounded (f : Format) (num den : Nat) : Magnitude :=
  if f.units num den = 2 ^ f.precision then ⟨2 ^ (f.precision - 1), f.unitExponent num den + 1⟩
  else ⟨f.units num den, f.unitExponent num den⟩

theorem nearest?_eq (f : Format) {num : Nat} (hnum : num ≠ 0) (den : Nat) :
    f.nearest? num den =
      if (f.rounded num den).exponent ≤ f.maxExponent then some (f.rounded num den) else none := by
  unfold nearest?
  rw [if_neg hnum]
  rfl

theorem exponent_rounded (f : Format) (num den : Nat) :
    (f.rounded num den).exponent =
      if f.units num den = 2 ^ f.precision then f.unitExponent num den + 1
      else f.unitExponent num den := by
  unfold rounded
  split <;> rfl

theorem units_le (f : Format) {num den : Nat} (hnum : num ≠ 0) (hden : den ≠ 0) :
    f.units num den ≤ 2 ^ f.precision := by
  have hunit : floorLog2 num den + 1 ≤ f.unitExponent num den + f.precision := by
    unfold unitExponent
    omega
  have hlt : (num / den : ℚ) < 2 ^ (f.unitExponent num den + f.precision) :=
    (floorLog2_spec hnum hden).2.trans_le (zpow_le_zpow_right₀ one_le_two hunit)
  exact roundHalfEven_le (Nat.mul_pos (Nat.pos_of_ne_zero hden) (Nat.two_pow_pos _))
    (inUnits_lt hden hlt)

/-- Under the largest unit, what is at least half a unit above the largest number is rounded up. -/
theorem units_eq_iff_of_largest (f : Format) {num den : Nat} (hden : den ≠ 0)
    (hunit : f.unitExponent num den = f.maxExponent)
    (hlt : (num / den : ℚ) < 2 ^ (f.maxExponent + f.precision)) :
    f.units num den = 2 ^ f.precision ↔ f.overflow ≤ num / den := by
  have hlargest : (0 : ℚ) < 2 ^ f.maxExponent := zpow_pos two_pos _
  have hinUnits := div_in_units two_ne_zero (num : ℚ) den f.maxExponent
  have heven : 2 ^ f.precision % 2 = 0 := by cases f <;> rfl
  simp only [units, hunit]
  obtain ⟨num', hnum'⟩ : ∃ n, n = num * 2 ^ (-f.maxExponent).toNat := ⟨_, rfl⟩
  obtain ⟨den', hden'⟩ : ∃ n, n = den * 2 ^ f.maxExponent.toNat := ⟨_, rfl⟩
  have hpos : 0 < den' := by
    rw [hden']
    exact Nat.mul_pos (Nat.pos_of_ne_zero hden) (Nat.two_pow_pos _)
  have hposCast : (0 : ℚ) < den' := by exact_mod_cast hpos
  have hquotient : (num' / den' : ℚ) = num / den / 2 ^ f.maxExponent := by
    rw [hnum', hden', ← hinUnits]
    push_cast
    rfl
  have hbelow : num' < 2 ^ f.precision * den' := by
    rw [hnum', hden']
    exact inUnits_lt hden hlt
  rw [← hnum', ← hden', roundHalfEven_eq_iff hpos heven hbelow]
  calc 2 * (2 ^ f.precision * den') ≤ 2 * num' + den'
      ↔ (2 * (2 ^ f.precision * den') : ℚ) ≤ 2 * num' + den' := by
        rw [← Nat.cast_le (α := ℚ)]
        push_cast
        rfl
    _ ↔ (2 ^ f.precision - 1 / 2 : ℚ) ≤ num' / den' := by
        rw [le_div_iff₀ hposCast]
        constructor <;> intro h <;> linarith
    _ ↔ f.overflow ≤ num / den := by
        rw [hquotient, le_div_iff₀ hlargest]
        rfl

/-- **Rounding gives no number from the threshold on, and below it always one.** -/
theorem nearest?_eq_none_iff (f : Format) {num den : Nat} (hden : den ≠ 0) :
    f.nearest? num den = none ↔ f.overflow ≤ num / den := by
  by_cases hnum : num = 0
  · subst hnum
    have hpos := f.overflow_pos
    have hzero : f.nearest? 0 den = some ⟨0, f.minExponent⟩ := rfl
    simp [hzero, hpos]
  obtain ⟨hlow, hhigh⟩ := floorLog2_spec hnum hden
  obtain ⟨hover, hunder⟩ := f.overflow_spec
  have hminmax : f.minExponent < f.maxExponent := by cases f <;> decide
  have hnone : f.nearest? num den = none ↔ f.maxExponent < (f.rounded num den).exponent := by
    rw [nearest?_eq f hnum]
    split <;> simp_all
  have hunit : f.unitExponent num den = max (floorLog2 num den - f.precision + 1) f.minExponent :=
    rfl
  rw [hnone, exponent_rounded]
  rcases lt_trichotomy (f.unitExponent num den) f.maxExponent with hlt | heq | hgt
  · -- the fraction is smaller than anything that calls for the largest unit
    have hsmall : (num / den : ℚ) < f.overflow := by
      calc (num / den : ℚ) < 2 ^ (floorLog2 num den + 1) := hhigh
        _ ≤ 2 ^ (f.maxExponent + f.precision - 1) :=
          zpow_le_zpow_right₀ one_le_two (by omega)
        _ ≤ f.overflow := hover
    refine iff_of_false ?_ (not_le.mpr hsmall)
    split <;> omega
  · have hbelow : (num / den : ℚ) < 2 ^ (f.maxExponent + f.precision) := by
      calc (num / den : ℚ) < 2 ^ (floorLog2 num den + 1) := hhigh
        _ ≤ 2 ^ (f.maxExponent + f.precision) := zpow_le_zpow_right₀ one_le_two (by omega)
    rw [← f.units_eq_iff_of_largest hden heq hbelow]
    split <;> simp_all
  · have hlarge : f.overflow ≤ num / den := by
      calc f.overflow ≤ 2 ^ (f.maxExponent + f.precision) := hunder.le
        _ ≤ 2 ^ floorLog2 num den := zpow_le_zpow_right₀ one_le_two (by omega)
        _ ≤ num / den := hlow
    refine iff_of_true ?_ hlarge
    split <;> omega

theorem isFinite_nearest (f : Format) (negative : Bool) {num den : Nat} (hden : den ≠ 0) :
    (f.nearest negative num den).isFinite = true ↔ (num / den : ℚ) < f.overflow := by
  have hnone : f.nearest? num den = none ↔ f.overflow ≤ num / den := f.nearest?_eq_none_iff hden
  rw [← not_le, ← hnone]
  unfold nearest
  cases f.nearest? num den <;> simp [Floating.isFinite]

end Format

/-! ### Numerals -/

namespace Numeral

/-- The exact number, without its sign. -/
def absValue (n : Numeral) : ℚ :=
  n.digits * 10 ^ n.exponent

theorem absValue_lt_size (n : Numeral) : n.absValue < 10 ^ n.size := by
  have hdigits : n.digits < 10 ^ (toString n.digits).length :=
    (Nat.length_repr_le_iff Nat.length_repr_pos).mp le_rfl
  have hcast : (n.digits : ℚ) < 10 ^ (toString n.digits).length := by exact_mod_cast hdigits
  unfold absValue size
  rw [zpow_add₀ (by norm_num), zpow_natCast]
  gcongr

theorem size_le_absValue {n : Numeral} (hn : n.digits ≠ 0) : 10 ^ (n.size - 1) ≤ n.absValue := by
  obtain ⟨places, hplaces⟩ : ∃ places, (toString n.digits).length = places + 1 :=
    ⟨_, (Nat.succ_pred_eq_of_pos Nat.length_repr_pos).symm⟩
  have hdigits : 10 ^ places ≤ n.digits := by
    cases places with
    | zero => omega
    | succ k =>
        refine Nat.le_of_not_lt fun hlt => ?_
        have hshort := (Nat.length_repr_le_iff k.succ_pos).mpr hlt
        rw [← Nat.toString_eq_repr] at hshort
        omega
  have hcast : (10 ^ places : ℚ) ≤ n.digits := by exact_mod_cast hdigits
  have hsize : n.size - 1 = places + n.exponent := by
    unfold size
    omega
  unfold absValue
  rw [hsize, zpow_add₀ (by norm_num), zpow_natCast]
  gcongr

/-- **The datum nearest a numeral is a number exactly below the threshold.**  Numbers of too many
    places, or behind too many zeros, which are not rounded at all, make no exception. -/
theorem isFinite_toFloating (f : Format) (n : Numeral) :
    (n.toFloating f).isFinite = true ↔ n.absValue < f.overflow := by
  have hpos := f.overflow_pos
  unfold toFloating
  split
  · rename_i hzero
    simp [Floating.isFinite, absValue, hzero, hpos]
  split
  · rename_i hdigits hlarge
    have hge : f.overflow ≤ n.absValue := by
      calc f.overflow ≤ 10 ^ 400 := f.overflow_lt.le
        _ = 10 ^ (400 : ℤ) := (zpow_ofNat _ _).symm
        _ ≤ 10 ^ (n.size - 1) := zpow_le_zpow_right₀ (by norm_num) (by omega)
        _ ≤ n.absValue := size_le_absValue hdigits
    simp [Floating.isFinite, hge]
  split
  · rename_i hsmall
    have hlt : n.absValue < f.overflow := by
      calc n.absValue < 10 ^ n.size := n.absValue_lt_size
        _ ≤ 1 := zpow_le_one_of_nonpos₀ (by norm_num) (by omega)
        _ ≤ f.overflow := f.one_le_overflow
    simp [Floating.isFinite, hlt]
  · have hquotient : ((n.digits * 10 ^ n.exponent.toNat : Nat) / (10 ^ (-n.exponent).toNat : Nat)
        : ℚ) = n.absValue := by
      unfold absValue
      push_cast
      rw [pow_toNat_eq_zpow_mul (by norm_num) n.exponent, ← mul_assoc, mul_div_assoc,
        div_self (pow_ne_zero _ (by norm_num)), mul_one]
    rw [← hquotient]
    exact f.isFinite_nearest n.negative (pow_ne_zero _ (by norm_num))

end Numeral

end SeriesQuery
