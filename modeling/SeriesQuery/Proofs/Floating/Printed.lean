/-
Numbers as text.

A number of a format is written as a decimal of its rounding interval, and that interval ends half
a unit above the number at the latest.  Half a unit above the largest number is the threshold of
overflow, which belongs to no interval, since the mantissa below it is odd.  So the text of a number
is a numeral that is rounded to a number again, while the words for the other data are no numerals.
-/
import SeriesQuery.Floating.Shortest
import SeriesQuery.Proofs.Floating.Spelling
import SeriesQuery.Proofs.Text.DigitRuns

namespace SeriesQuery

open Text

/-! ### Decimals on a grid -/

/-- The exact number. -/
def Decimal.value (d : Decimal) : ℚ :=
  d.digits * 10 ^ d.exponent

namespace Magnitude

/-- The magnitude is one of the format. -/
structure Fits (f : Format) (x : Magnitude) : Prop where
  mantissa_lt : x.mantissa < 2 ^ f.precision
  minExponent_le : f.minExponent ≤ x.exponent
  le_maxExponent : x.exponent ≤ f.maxExponent

/-- A quarter of the unit of the number, in the measure that it shares with the grid. -/
def quarterUnit (x : Magnitude) (k : Int) : Nat :=
  2 ^ (x.exponent - 2).toNat * 10 ^ (-k).toNat

/-- The step of the grid, in the same measure. -/
def gridStep (x : Magnitude) (k : Int) : Nat :=
  2 ^ (-(x.exponent - 2)).toNat * 10 ^ k.toNat

theorem quarterUnit_pos (x : Magnitude) (k : Int) : 0 < x.quarterUnit k :=
  Nat.mul_pos (Nat.two_pow_pos _) (Nat.pow_pos (by decide))

theorem gridStep_mul (x : Magnitude) (k : Int) :
    (x.gridStep k : ℚ) * 2 ^ (x.exponent - 2) = x.quarterUnit k * 10 ^ k := by
  have htwo := pow_toNat_eq_zpow_mul (b := 2) two_ne_zero (x.exponent - 2)
  have hten := pow_toNat_eq_zpow_mul (b := 10) (by norm_num) k
  unfold gridStep quarterUnit
  push_cast
  rw [htwo, hten]
  ring

/-- A point of a grid that stands for a number is at most half a unit above it, and nearer if the
    mantissa is odd. -/
theorem digits_of_onGrid? {f : Format} {x : Magnitude} {k : Int} {d : Decimal}
    (h : x.onGrid? f k = some d) :
    d.exponent = k ∧ d.digits * x.gridStep k ≤ (4 * x.mantissa + 2) * x.quarterUnit k ∧
      (d.digits * x.gridStep k = (4 * x.mantissa + 2) * x.quarterUnit k → x.mantissa % 2 = 0) := by
  have hpos := x.quarterUnit_pos k
  have hquarter : 2 ^ (x.exponent - 2).toNat * 10 ^ (-k).toNat = x.quarterUnit k := rfl
  have hstep : 2 ^ (-(x.exponent - 2)).toNat * 10 ^ k.toNat = x.gridStep k := rfl
  unfold onGrid? at h
  simp only [Nat.pow_eq, hquarter, hstep] at h
  rw [Nat.add_mul (4 * x.mantissa)]
  have hdivmod := Nat.div_add_mod (4 * x.mantissa * x.quarterUnit k) (x.gridStep k)
  generalize 4 * x.mantissa * x.quarterUnit k = value at *
  generalize x.gridStep k = step at *
  generalize x.quarterUnit k = unit at *
  split at h
  · -- the point above the number
    rename_i hup
    cases h
    have hdigits : (value / step + 1) * step = step * (value / step) + step := by ring
    obtain ⟨hup | ⟨heven, hup⟩, -⟩ := hup
    · exact ⟨rfl, by simp only; omega, fun heq => by simp only at heq; omega⟩
    · exact ⟨rfl, by simp only; omega, fun _ => heven⟩
  · split at h
    · cases h
      have hdigits : value / step * step = step * (value / step) := Nat.mul_comm _ _
      exact ⟨rfl, by simp only; omega, fun heq => by simp only at heq; omega⟩
    · cases h

theorem value_of_onGrid? {f : Format} {x : Magnitude} {k : Int} {d : Decimal}
    (h : x.onGrid? f k = some d) :
    d.value ≤ (x.mantissa + 1 / 2) * 2 ^ x.exponent ∧
      (d.value = (x.mantissa + 1 / 2) * 2 ^ x.exponent → x.mantissa % 2 = 0) := by
  obtain ⟨rfl, hle, heq⟩ := digits_of_onGrid? h
  have hunit : (0 : ℚ) < x.quarterUnit d.exponent := by exact_mod_cast x.quarterUnit_pos _
  have hquarter : (0 : ℚ) < 2 ^ (x.exponent - 2) := zpow_pos two_pos _
  have hscaled : d.value * x.quarterUnit d.exponent =
      (d.digits * x.gridStep d.exponent : Nat) * 2 ^ (x.exponent - 2) := by
    unfold Decimal.value
    push_cast
    rw [mul_assoc, mul_assoc, x.gridStep_mul, mul_comm (10 ^ d.exponent : ℚ)]
  have hend : (x.mantissa + 1 / 2) * 2 ^ x.exponent * (x.quarterUnit d.exponent : ℚ) =
      ((4 * x.mantissa + 2) * x.quarterUnit d.exponent : Nat) * 2 ^ (x.exponent - 2) := by
    have hfour : (2 : ℚ) ^ x.exponent = 4 * 2 ^ (x.exponent - 2) := by
      rw [zpow_sub₀ two_ne_zero]
      norm_num
      ring
    rw [hfour]
    push_cast
    ring
  constructor
  · refine le_of_mul_le_mul_right ?_ hunit
    rw [hscaled, hend]
    have hcast : ((d.digits * x.gridStep d.exponent : Nat) : ℚ) ≤
        ((4 * x.mantissa + 2) * x.quarterUnit d.exponent : Nat) := by exact_mod_cast hle
    gcongr
  · intro h
    refine heq ?_
    have hcast : ((d.digits * x.gridStep d.exponent : Nat) : ℚ) =
        ((4 * x.mantissa + 2) * x.quarterUnit d.exponent : Nat) := by
      refine mul_right_cancel₀ hquarter.ne' ?_
      rw [← hscaled, ← hend, h]
    exact_mod_cast hcast

/-- The shortest decimal of a number stays below the threshold. -/
theorem value_shortest_lt {f : Format} {x : Magnitude} (hx : x.Fits f) :
    (x.shortest f).value < f.overflow := by
  simp only [shortest]
  cases hfound : (List.range (f.precision + 4)).findSome? fun (i : Nat) =>
      x.onGrid? f (x.decimalBound - i) with
  | none =>
      have hzero : Decimal.value ⟨0, 0⟩ = 0 := by simp [Decimal.value]
      rw [Option.getD_none, hzero]
      exact f.overflow_pos
  | some d =>
      obtain ⟨i, -, hgrid⟩ := List.exists_of_findSome?_eq_some hfound
      obtain ⟨hle, heven⟩ := value_of_onGrid? hgrid
      have hexponent : (2 : ℚ) ^ x.exponent ≤ 2 ^ f.maxExponent :=
        zpow_le_zpow_right₀ one_le_two hx.le_maxExponent
      have hlargest : (0 : ℚ) < 2 ^ f.maxExponent := zpow_pos two_pos _
      rw [Option.getD_some]
      rcases hle.lt_or_eq with hlt | heq
      · have hmantissa : (x.mantissa + 1 : ℚ) ≤ 2 ^ f.precision := by exact_mod_cast hx.mantissa_lt
        calc d.value < (x.mantissa + 1 / 2) * 2 ^ x.exponent := hlt
          _ ≤ (x.mantissa + 1 / 2) * 2 ^ f.maxExponent := by gcongr
          _ ≤ (2 ^ f.precision - 1 / 2) * 2 ^ f.maxExponent := by
            gcongr
            linarith
      · -- the largest mantissa is odd
        have hpower : 2 ^ f.precision % 2 = 0 := by cases f <;> rfl
        have hmantissa : (x.mantissa + 2 : ℚ) ≤ 2 ^ f.precision := by
          have hnat : x.mantissa + 2 ≤ 2 ^ f.precision := by
            have := hx.mantissa_lt
            have := heven heq
            omega
          exact_mod_cast hnat
        calc d.value = (x.mantissa + 1 / 2) * 2 ^ x.exponent := heq
          _ ≤ (x.mantissa + 1 / 2) * 2 ^ f.maxExponent := by gcongr
          _ < (2 ^ f.precision - 1 / 2) * 2 ^ f.maxExponent := by
            gcongr
            linarith

end Magnitude

/-! ### Decimals written out -/

namespace Decimal

open Numeral

/-- The digits behind so many zeros that one digit stands before the point. -/
def padded (d : Decimal) (places : Nat) : List Char :=
  List.replicate (places + 1 - (Nat.toDigits 10 d.digits).length) '0' ++ Nat.toDigits 10 d.digits

theorem length_padded (d : Decimal) (places : Nat) : places < (d.padded places).length := by
  unfold padded
  rw [List.length_append, List.length_replicate]
  omega

theorem positional_of_whole {d : Decimal} (h : 0 ≤ d.exponent) :
    d.positional.toList = Nat.toDigits 10 d.digits ++ List.replicate d.exponent.toNat '0' := by
  simp [positional, h]

theorem positional_of_fraction {d : Decimal} {places : Nat} (h : d.exponent = -(places : Int))
    (hplaces : 0 < places) :
    d.positional.toList =
      (d.padded places).take ((d.padded places).length - places) ++
        '.' :: (d.padded places).drop ((d.padded places).length - places) := by
  have hneg : ¬ 0 ≤ d.exponent := by omega
  have hcount : (-d.exponent).toNat = places := by omega
  simp only [positional, if_neg hneg, hcount, String.toList_ofList, Nat.toString_eq_repr,
    Nat.toList_repr]
  rfl

/-- A decimal that is written out is a numeral for its value, whatever its sign. -/
theorem exists_spelling (d : Decimal) {sg : List Char} (hsg : sg ∈ signs) :
    ∃ w : Spelling, w.text = sg ++ d.positional.toList ∧ w.numeral.absValue = d.value := by
  by_cases hexponent : 0 ≤ d.exponent
  · refine ⟨⟨sg, Nat.toDigits 10 d.digits ++ List.replicate d.exponent.toNat '0', none, none, hsg,
      List.forall_mem_append.mpr ⟨isDigit_of_mem_toDigits, isDigit_of_mem_zeros⟩, by simp, by simp⟩,
      ?_, ?_⟩
    · simp [Spelling.text, positional_of_whole hexponent]
    · have hpow : (10 : ℚ) ^ d.exponent = 10 ^ d.exponent.toNat := by
        rw [← zpow_natCast, Int.toNat_of_nonneg hexponent]
      simp [Spelling.numeral, absValue, value, valueOf_append_zeros, valueOf_toDigits, hpow,
        mul_comm]
  · obtain ⟨places, hplaces⟩ : ∃ places : Nat, d.exponent = -(places : Int) :=
      ⟨(-d.exponent).toNat, by omega⟩
    have htext := positional_of_fraction hplaces (by omega)
    have hlength := d.length_padded places
    have hvalue : valueOf (d.padded places) = d.digits := by
      unfold padded
      rw [valueOf_zeros_append, valueOf_toDigits]
    have hdigits : ∀ c ∈ d.padded places, c.isDigit = true :=
      List.forall_mem_append.mpr ⟨isDigit_of_mem_zeros, isDigit_of_mem_toDigits⟩
    generalize d.padded places = padded at *
    have hne : padded ≠ [] := List.ne_nil_of_length_pos (by omega)
    refine ⟨⟨sg, padded.take (padded.length - places), some (padded.drop (padded.length - places)),
      none, hsg, fun c hc => hdigits c (List.mem_of_mem_take hc), ?_, by simpa using hne⟩, ?_, ?_⟩
    · rintro _ ⟨⟩ c hc
      exact hdigits c (List.mem_of_mem_drop hc)
    · simp [Spelling.text, htext]
    · have hcount : ((padded.drop (padded.length - places)).length : Int) = places := by
        rw [List.length_drop]
        omega
      simp only [Spelling.numeral, absValue, value, Option.getD_some, Option.elim_none,
        List.take_append_drop, hvalue, hcount, hplaces, zero_sub]

end Decimal

/-! ### Data of a format -/

/-- The datum is one of the format. -/
def Floating.Fits (f : Format) : Floating → Prop
  | nan | infinite _ => True
  | finite _ x => x.Fits f

namespace Format

theorem fits_zero (f : Format) : Magnitude.Fits f ⟨0, f.minExponent⟩ where
  mantissa_lt := Nat.two_pow_pos _
  minExponent_le := le_rfl
  le_maxExponent := by cases f <;> decide

/-- Rounding gives numbers of the format. -/
theorem fits_of_nearest? {f : Format} {num den : Nat} {x : Magnitude} (hden : den ≠ 0)
    (h : f.nearest? num den = some x) : x.Fits f := by
  by_cases hnum : num = 0
  · subst hnum
    cases h
    exact f.fits_zero
  rw [nearest?_eq f hnum] at h
  split at h
  · rename_i hmax
    cases h
    have hmin : f.minExponent ≤ f.unitExponent num den := le_max_right _ _
    unfold rounded at hmax ⊢
    split at hmax
    · rename_i hcarry
      rw [if_pos hcarry]
      refine ⟨Nat.pow_lt_pow_right one_lt_two (by cases f <;> decide), ?_, hmax⟩
      exact hmin.trans (Int.le_add_one le_rfl)
    · rename_i hcarry
      rw [if_neg hcarry]
      exact ⟨lt_of_le_of_ne (f.units_le hnum hden) hcarry, hmin, hmax⟩
  · cases h

theorem fits_nearest (f : Format) (negative : Bool) {num den : Nat} (hden : den ≠ 0) :
    (f.nearest negative num den).Fits f := by
  unfold nearest
  split
  · rename_i x hx
    exact fits_of_nearest? hden hx
  · trivial

theorem fits_ofInt (f : Format) (n : Int) : (f.ofInt n).Fits f :=
  f.fits_nearest _ one_ne_zero

end Format

/-! ### The text of a datum -/

namespace Numeral

theorem isFiniteText_decimal {d : Decimal} (sg : List Char) (hsg : sg ∈ signs)
    (hd : d.value < Format.overflow .binary64) :
    isFiniteText (sg ++ d.positional.toList) = true := by
  obtain ⟨w, hw, hvalue⟩ := d.exists_spelling hsg
  rw [isFiniteText_iff]
  refine ⟨w, hw, ?_⟩
  rw [hvalue, ← Format.overflow_binary64]
  exact hd

/-- A whole number of 64 bits is a finite numeral. -/
theorem isFiniteText_int {n : Int} (hn : n.natAbs < UInt64.size) :
    isFiniteText (toString n).toList = true := by
  have hunsigned (sg : List Char) (hsg : sg ∈ signs) {k : Nat} (hk : k < UInt64.size) :
      isFiniteText (sg ++ (toString k).toList) = true := by
    have hpositional : (Decimal.positional ⟨k, 0⟩).toList = (toString k).toList := by
      rw [Decimal.positional_of_whole le_rfl]
      simp
    have hvalue : Decimal.value ⟨k, 0⟩ < Format.overflow .binary64 := by
      have hsize : (k : ℚ) < 2 ^ 64 := by exact_mod_cast hk
      calc Decimal.value ⟨k, 0⟩ = k := by simp [Decimal.value]
        _ < 2 ^ (64 : ℤ) := by exact_mod_cast hsize
        _ ≤ 2 ^ (Format.maxExponent .binary64 + Format.precision .binary64 - 1) :=
          zpow_le_zpow_right₀ one_le_two (by decide)
        _ ≤ Format.overflow .binary64 := (Format.overflow_spec .binary64).1
    rw [← hpositional]
    exact isFiniteText_decimal sg hsg hvalue
  cases n with
  | ofNat k => exact hunsigned [] (by decide) hn
  | negSucc k =>
      show isFiniteText ("-" ++ toString (k + 1)).toList = true
      rw [String.toList_append]
      exact hunsigned ['-'] (by decide) hn

/-- **The text of a datum is a finite numeral exactly when the datum is a number.** -/
theorem isFiniteText_floating {f : Format} {x : Floating} (hx : x.Fits f) :
    isFiniteText (x.text f).toList = true ↔ x.isFinite = true := by
  cases x with
  | nan =>
      show isFiniteText "NaN".toList = true ↔ false = true
      decide
  | infinite negative =>
      show isFiniteText (if negative then "-inf" else "inf").toList = true ↔ false = true
      cases negative <;> decide
  | finite negative x =>
      refine iff_of_true ?_ rfl
      obtain ⟨d, hd, hdigits⟩ : ∃ d : Decimal, d.value < f.overflow ∧
          (if x.mantissa = 0 then "0" else (x.shortest f).positional) = d.positional := by
        split
        · exact ⟨⟨0, 0⟩, by simpa [Decimal.value] using f.overflow_pos, by decide⟩
        · exact ⟨x.shortest f, Magnitude.value_shortest_lt hx, rfl⟩
      have hbound := hd.trans_le f.overflow_le
      simp only [Floating.text, hdigits]
      cases negative with
      | true => simpa using isFiniteText_decimal ['-'] (by decide) hbound
      | false => simpa using isFiniteText_decimal [] (by decide) hbound

end Numeral

end SeriesQuery
