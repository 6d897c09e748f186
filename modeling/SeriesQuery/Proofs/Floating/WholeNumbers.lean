/-
Whole numbers in binary64.

From 2^53 on not every whole number is one of the format.  Those that are rounded to the same
number fill an interval around it, and what is written for all of them is one of the interval: one
that has as many zeros at its end as any.  Where the interval is wide enough there are always some
zeros, so a whole number that does not end in them is written as another.
-/
import SeriesQuery.Proofs.Floating.Printed

namespace SeriesQuery

/-! ### Rounding to a whole number -/

/-- The whole number is at most half away from the fraction, and even where it is a half away. -/
structure IsNearest (num den m : Nat) : Prop where
  low : 2 * (m * den) ≤ 2 * num + den
  high : 2 * num ≤ 2 * (m * den) + den
  even : 2 * (m * den) = 2 * num + den ∨ 2 * num = 2 * (m * den) + den → m % 2 = 0

theorem isNearest_roundHalfEven {den : Nat} (hden : 0 < den) (num : Nat) :
    IsNearest num den (roundHalfEven num den) := by
  have hdivmod := Nat.div_add_mod num den
  have hmod := Nat.mod_lt num hden
  unfold roundHalfEven
  dsimp only
  rw [Nat.mul_comm] at hdivmod
  have hnext : (num / den + 1) * den = num / den * den + den := Nat.succ_mul _ _
  split
  · exact ⟨by omega, by omega, by omega⟩
  · split
    · exact ⟨by omega, by omega, by omega⟩
    · -- a tie
      rcases Nat.mod_two_eq_zero_or_one (num / den) with heven | hodd
      · rw [heven, Nat.add_zero]
        exact ⟨by omega, by omega, fun _ => heven⟩
      · rw [hodd]
        exact ⟨by omega, by omega, by omega⟩

theorem IsNearest.le {num den m m' : Nat} (hden : 0 < den) (h : IsNearest num den m)
    (h' : IsNearest num den m') : m ≤ m' := by
  by_contra hlt
  obtain ⟨k, rfl⟩ : ∃ k, m = m' + 1 + k := ⟨m - (m' + 1), by omega⟩
  have hproduct : (m' + 1 + k) * den = m' * den + den + k * den := by ring
  have hlow := h.low
  have heven := h.even
  have hhigh' := h'.high
  have heven' := h'.even
  rw [hproduct] at hlow heven
  cases k with
  | zero =>
      rw [Nat.zero_mul] at hlow heven
      omega
  | succ k =>
      have hfar : (k + 1) * den = k * den + den := Nat.succ_mul _ _
      omega

theorem roundHalfEven_eq {num den m : Nat} (hden : 0 < den) (h : IsNearest num den m) :
    roundHalfEven num den = m :=
  have hround := isNearest_roundHalfEven hden num
  Nat.le_antisymm (hround.le hden h) (h.le hden hround)

namespace Format

theorem floorLog2_one {n : Nat} (hn : n ≠ 0) : floorLog2 n 1 = n.log2 := by
  have hone : (1 : Nat).log2 = 0 := by decide
  have hneg : (-(n.log2 : Int)).toNat = 0 := by omega
  have hle : 1 * Nat.pow 2 n.log2 ≤ n * Nat.pow 2 0 := by
    simpa using Nat.log2_self_le hn
  unfold floorLog2
  dsimp only
  rw [hone, Nat.cast_zero, sub_zero, hneg, Int.toNat_natCast, if_pos hle]

/-- The unit of a whole number that needs all bits of a mantissa is whole. -/
theorem unitExponent_whole {n e : Nat} (hlow : 2 ^ (e + 52) ≤ n) (hhigh : n < 2 ^ (e + 53)) :
    unitExponent .binary64 n 1 = e := by
  have hn : n ≠ 0 := Nat.ne_of_gt (Nat.lt_of_lt_of_le (Nat.two_pow_pos _) hlow)
  have hlog : n.log2 = e + 52 := (Nat.log2_eq_iff hn).mpr ⟨hlow, hhigh⟩
  unfold unitExponent
  rw [floorLog2_one hn, hlog]
  show max (((e + 52 : Nat) : Int) - 53 + 1) (-1074) = e
  omega

/-- Such a number is rounded to whole units. -/
theorem nearest?_whole {n e m : Nat} (hlow : 2 ^ (e + 52) ≤ n) (hhigh : n < 2 ^ (e + 53))
    (he : e < 64) (hm : IsNearest n (2 ^ e) m) :
    nearest? .binary64 n 1 = some (if m = 2 ^ 53 then ⟨2 ^ 52, e + 1⟩ else ⟨m, e⟩) := by
  have hunit := unitExponent_whole hlow hhigh
  have hunits : units .binary64 n 1 = m := by
    have hneg : (-(e : Int)).toNat = 0 := by omega
    unfold units
    simp only [hunit, hneg, Int.toNat_natCast, pow_zero, Nat.mul_one, Nat.one_mul]
    exact roundHalfEven_eq (Nat.two_pow_pos e) hm
  have hrounded : rounded .binary64 n 1 = if m = 2 ^ 53 then ⟨2 ^ 52, e + 1⟩ else ⟨m, e⟩ := by
    unfold rounded
    rw [hunit, hunits]
    rfl
  have hexponent : (rounded .binary64 n 1).exponent ≤ maxExponent .binary64 := by
    rw [hrounded]
    show _ ≤ (971 : Int)
    split <;> simp only <;> omega
  rw [nearest?_eq _ (Nat.ne_of_gt (Nat.lt_of_lt_of_le (Nat.two_pow_pos _) hlow)),
    if_pos hexponent, hrounded]

/-- The exponent of a number tells the size of what is rounded to it. -/
theorem size_of_nearest? {n e : Nat} {x : Magnitude} (h : nearest? .binary64 n 1 = some x)
    (hx : x.exponent = e + 1) : 2 ^ (e + 52) ≤ n ∧ n < 2 ^ (e + 54) := by
  by_cases hn : n = 0
  · subst hn
    cases h
    exact absurd hx (by show (-1074 : Int) ≠ e + 1; omega)
  have hrounded : rounded .binary64 n 1 = x := by
    rw [nearest?_eq _ hn] at h
    split at h
    · exact Option.some.inj h
    · cases h
  have hunit : unitExponent .binary64 n 1 = max ((n.log2 : Int) - 53 + 1) (-1074) := by
    unfold unitExponent
    rw [floorLog2_one hn]
    rfl
  have hexponent := exponent_rounded .binary64 n 1
  rw [hrounded, hx, hunit] at hexponent
  have hlog : n.log2 = e + 52 ∨ n.log2 = e + 53 := by
    split at hexponent <;> omega
  have hlow := Nat.log2_self_le hn
  have hhigh := @Nat.lt_log2_self n
  rcases hlog with hlog | hlog <;> rw [hlog] at hlow hhigh
  · exact ⟨hlow, hhigh.trans_le (Nat.pow_le_pow_right (by decide) (by omega))⟩
  · exact ⟨(Nat.pow_le_pow_right (by decide) (by omega)).trans hlow, hhigh⟩

end Format

/-! ### The rounding interval -/

namespace Magnitude

/-- A number of binary64 whose mantissa has full length, a quarter of whose unit is a power of two
    with this exponent. -/
structure IsWhole (x : Magnitude) (e : Nat) : Prop where
  exponent_eq : x.exponent = e + 2
  le_mantissa : 2 ^ 52 ≤ x.mantissa
  mantissa_lt : x.mantissa < 2 ^ 53

/-- The whole number is in the rounding interval, in quarters of the number's unit. -/
structure InInterval (x : Magnitude) (quarter r : Nat) : Prop where
  low : 4 * x.mantissa * quarter ≤ r + x.slackBelow .binary64 * quarter
  high : r ≤ 4 * x.mantissa * quarter + 2 * quarter
  even : 4 * x.mantissa * quarter = r + x.slackBelow .binary64 * quarter ∨
    r = 4 * x.mantissa * quarter + 2 * quarter → x.mantissa % 2 = 0

theorem slackBelow_cases (x : Magnitude) :
    (x.mantissa = 2 ^ 52 ∧ x.slackBelow .binary64 = 1) ∨
      (x.mantissa ≠ 2 ^ 52 ∧ x.slackBelow .binary64 = 2) := by
  by_cases h : x.mantissa = 2 ^ 52
  · exact .inl ⟨h, if_pos h⟩
  · exact .inr ⟨h, if_neg h⟩

/-- What is in the interval of the number is rounded to it. -/
theorem nearest?_of_inInterval {x : Magnitude} {e r : Nat} (hx : x.IsWhole e) (he : e < 60)
    (h : x.InInterval (2 ^ e) r) : Format.nearest? .binary64 r 1 = some x := by
  obtain ⟨m, exponent⟩ := x
  have hpos := Nat.two_pow_pos e
  have hlow := h.low
  have hhigh := h.high
  have heven := h.even
  have hmantissa := hx.le_mantissa
  have hmantissa' := hx.mantissa_lt
  have hslack := slackBelow_cases ⟨m, exponent⟩
  obtain rfl : exponent = e + 2 := hx.exponent_eq
  simp only at hlow hhigh heven hmantissa hmantissa' hslack
  have hunit : 2 ^ (e + 2) = 4 * 2 ^ e := by ring
  have hunit' : 2 ^ (e + 1) = 2 * 2 ^ e := by ring
  have hfirst : 2 ^ (e + 2 + 52) = 4 * 2 ^ 52 * 2 ^ e := by ring
  have hlast : 2 ^ (e + 2 + 53) = 4 * 2 ^ 53 * 2 ^ e := by ring
  have hbefore : 2 ^ (e + 1 + 52) = 2 * 2 ^ 52 * 2 ^ e := by ring
  have hend : 4 * m * 2 ^ e + 4 * 2 ^ e ≤ 4 * 2 ^ 53 * 2 ^ e := by
    calc 4 * m * 2 ^ e + 4 * 2 ^ e = 4 * (m + 1) * 2 ^ e := by ring
      _ ≤ 4 * 2 ^ 53 * 2 ^ e := by gcongr; omega
  rcases Nat.lt_or_ge r (2 ^ (e + 2 + 52)) with hbelow | habove
  · -- below the power of two the units are half as large
    obtain rfl : m = 2 ^ 52 := by
      by_contra hne
      have hgap : 4 * 2 ^ 52 * 2 ^ e + 4 * 2 ^ e ≤ 4 * m * 2 ^ e := by
        calc 4 * 2 ^ 52 * 2 ^ e + 4 * 2 ^ e = 4 * (2 ^ 52 + 1) * 2 ^ e := by ring
          _ ≤ 4 * m * 2 ^ e := by gcongr; omega
      rcases hslack with ⟨h, -⟩ | ⟨-, hslack⟩
      · exact hne h
      · rw [hslack] at hlow
        omega
    have hslack : slackBelow .binary64 ⟨2 ^ 52, (e : Int) + 2⟩ = 1 := rfl
    rw [hslack] at hlow
    have hnearest : IsNearest r (2 ^ (e + 1)) (2 ^ 53) := by
      rw [hunit']
      exact ⟨by omega, by omega, fun _ => by decide⟩
    rw [Format.nearest?_whole (by omega) hbelow (by omega) hnearest, if_pos rfl]
    simp [add_assoc]
  · have hnearest : IsNearest r (2 ^ (e + 2)) m := by
      have hproduct : m * (4 * 2 ^ e) = 4 * m * 2 ^ e := by ring
      rw [hunit]
      rcases hslack with ⟨-, hslack⟩ | ⟨-, hslack⟩ <;> rw [hslack] at hlow heven <;>
        exact ⟨by omega, by omega, by omega⟩
    rw [Format.nearest?_whole habove (by omega) (by omega) hnearest, if_neg (by omega)]
    rfl

/-- A whole number is in the interval of the number that it is rounded to. -/
theorem exists_inInterval {n e : Nat} (hlow : 2 ^ (e + 54) ≤ n) (hhigh : n < 2 ^ (e + 55))
    (he : e < 60) : ∃ x e', Format.nearest? .binary64 n 1 = some x ∧ x.IsWhole e' ∧
      x.InInterval (2 ^ e') n ∧ (e' = e ∨ e' = e + 1) := by
  have hpos := Nat.two_pow_pos e
  have hunit : 2 ^ (e + 2) = 4 * 2 ^ e := by ring
  have hunit' : 2 ^ (e + 1) = 2 * 2 ^ e := by ring
  have hfirst : 2 ^ (e + 54) = 4 * 2 ^ 52 * 2 ^ e := by ring
  have hlast : 2 ^ (e + 55) = 4 * 2 ^ 53 * 2 ^ e := by ring
  have hnearest := isNearest_roundHalfEven (Nat.two_pow_pos (e + 2)) n
  generalize roundHalfEven n (2 ^ (e + 2)) = m at hnearest
  have hround :=
    Format.nearest?_whole (show 2 ^ (e + 2 + 52) ≤ n from hlow) hhigh (by omega) hnearest
  have hproduct : m * (4 * 2 ^ e) = 4 * m * 2 ^ e := by ring
  have hlow' := hnearest.low
  have hhigh' := hnearest.high
  have heven := hnearest.even
  rw [hunit, hproduct] at hlow' hhigh' heven
  by_cases hcarry : m = 2 ^ 53
  · rw [if_pos hcarry] at hround
    subst hcarry
    refine ⟨_, e + 1, hround, ⟨?_, le_rfl, by norm_num⟩, ?_, .inr rfl⟩
    · simp [add_assoc]
    · have hslack : slackBelow .binary64 ⟨2 ^ 52, ((e + 2 : Nat) : Int) + 1⟩ = 1 := rfl
      constructor <;> rw [hunit'] <;> simp only [hslack] <;> omega
  · rw [if_neg hcarry] at hround
    have hm : 2 ^ 52 ≤ m := by
      by_contra hlt
      have hgap : 4 * m * 2 ^ e + 4 * 2 ^ e ≤ 4 * 2 ^ 52 * 2 ^ e := by
        calc 4 * m * 2 ^ e + 4 * 2 ^ e = 4 * (m + 1) * 2 ^ e := by ring
          _ ≤ 4 * 2 ^ 52 * 2 ^ e := by gcongr; omega
      omega
    have hm' : m < 2 ^ 53 := by
      by_contra hge
      have hgap : 4 * 2 ^ 53 * 2 ^ e + 4 * 2 ^ e ≤ 4 * m * 2 ^ e := by
        calc 4 * 2 ^ 53 * 2 ^ e + 4 * 2 ^ e = 4 * (2 ^ 53 + 1) * 2 ^ e := by ring
          _ ≤ 4 * m * 2 ^ e := by gcongr; omega
      omega
    refine ⟨_, e, hround, ⟨rfl, hm, hm'⟩, ?_, .inl rfl⟩
    rcases slackBelow_cases ⟨m, ((e + 2 : Nat) : Int)⟩ with ⟨rfl, hslack⟩ | ⟨-, hslack⟩ <;>
      constructor <;> simp only [hslack] <;> omega

/-- **What is rounded to the number is what is in its interval.** -/
theorem nearest?_iff_inInterval {x : Magnitude} {e : Nat} (hx : x.IsWhole (e + 1)) (he : e < 59)
    (n : Nat) : Format.nearest? .binary64 n 1 = some x ↔ x.InInterval (2 ^ (e + 1)) n := by
  refine ⟨fun h => ?_, nearest?_of_inInterval hx (by omega)⟩
  have hexponent : x.exponent = ((e + 2 : Nat) : Int) + 1 := by
    rw [hx.exponent_eq]
    push_cast
    ring
  obtain ⟨hlow, hhigh⟩ := Format.size_of_nearest? h hexponent
  obtain ⟨e', hlow', hhigh', he'⟩ : ∃ e', 2 ^ (e' + 54) ≤ n ∧ n < 2 ^ (e' + 55) ∧ e' < 60 := by
    rcases Nat.lt_or_ge n (2 ^ (e + 1 + 54)) with hlt | hge
    · exact ⟨e, hlow, hlt, by omega⟩
    · exact ⟨e + 1, hge, hhigh, by omega⟩
  obtain ⟨x', e'', hx', hwhole, hinterval, -⟩ := exists_inInterval hlow' hhigh' he'
  obtain rfl : x' = x := Option.some.inj (hx'.symm.trans h)
  obtain rfl : e'' = e + 1 := by
    have hsame := hwhole.exponent_eq.symm.trans hx.exponent_eq
    omega
  exact hinterval

/-! ### Grids of powers of ten -/

/-- The search on a grid of whole numbers, by quotient and remainder. -/
theorem onGrid?_whole {x : Magnitude} {e : Nat} (hx : x.exponent = e + 2) (k : Nat) :
    x.onGrid? .binary64 k =
      let value := 4 * x.mantissa * 2 ^ e
      let below := x.slackBelow .binary64 * 2 ^ e
      let above := 2 * 2 ^ e
      let q := value / 10 ^ k
      let r := value % 10 ^ k
      let lower := r < below ∨ (x.mantissa % 2 = 0 ∧ r = below)
      let upper := 10 ^ k < r + above ∨ (x.mantissa % 2 = 0 ∧ 10 ^ k = r + above)
      if upper ∧ (¬ lower ∨ 10 ^ k ≤ 2 * r) then some ⟨q + 1, k⟩
      else if lower then some ⟨q, k⟩
      else none := by
  have hquarter : x.exponent - 2 = e := by omega
  have hneg (n : Nat) : (-(n : Int)).toNat = 0 := by omega
  unfold onGrid?
  simp only [hquarter, hneg, Int.toNat_natCast, Nat.pow_eq, pow_zero, Nat.mul_one, Nat.one_mul]

/-- A point of a grid that stands for the number is in its interval. -/
theorem inInterval_of_onGrid? {x : Magnitude} {e k : Nat} {d : Decimal} (hx : x.exponent = e + 2)
    (h : x.onGrid? .binary64 k = some d) :
    d.exponent = k ∧ x.InInterval (2 ^ e) (d.digits * 10 ^ k) := by
  have hdivmod := Nat.div_add_mod' (4 * x.mantissa * 2 ^ e) (10 ^ k)
  have hmod := Nat.mod_lt (4 * x.mantissa * 2 ^ e) (Nat.pow_pos (by decide) : 0 < 10 ^ k)
  have hnext : (4 * x.mantissa * 2 ^ e / 10 ^ k + 1) * 10 ^ k =
      4 * x.mantissa * 2 ^ e / 10 ^ k * 10 ^ k + 10 ^ k := Nat.succ_mul _ _
  have hquarter := Nat.two_pow_pos e
  rw [onGrid?_whole hx] at h
  dsimp only at h
  suffices hinterval : ∀ q, d = ⟨q, k⟩ → x.InInterval (2 ^ e) (q * 10 ^ k) by
    split at h
    · cases h
      exact ⟨rfl, hinterval _ rfl⟩
    · split at h <;> cases h
      exact ⟨rfl, hinterval _ rfl⟩
  rintro q rfl
  split at h
  · obtain rfl : _ = q := congrArg Decimal.digits (Option.some.inj h)
    constructor <;> rw [hnext] <;> omega
  · split at h <;> cases h
    constructor <;> omega

/-- Where the interval has a multiple of a power of ten, the grid has a point that stands for the
    number. -/
theorem exists_onGrid? {x : Magnitude} {e k a : Nat} (hx : x.exponent = e + 2)
    (h : x.InInterval (2 ^ e) (a * 10 ^ k)) : ∃ d, x.onGrid? .binary64 k = some d := by
  have hdivmod := Nat.div_add_mod' (4 * x.mantissa * 2 ^ e) (10 ^ k)
  have hmod := Nat.mod_lt (4 * x.mantissa * 2 ^ e) (Nat.pow_pos (by decide) : 0 < 10 ^ k)
  have hlow := h.low
  have hhigh := h.high
  have heven := h.even
  rw [onGrid?_whole hx]
  dsimp only
  split
  · exact ⟨_, rfl⟩
  · split
    · exact ⟨_, rfl⟩
    · exfalso
      rcases Nat.lt_or_ge (4 * x.mantissa * 2 ^ e / 10 ^ k) a with habove | hbelow
      · have hnext := Nat.mul_le_mul_right (10 ^ k) habove
        rw [Nat.succ_mul] at hnext
        omega
      · have hprevious := Nat.mul_le_mul_right (10 ^ k) hbelow
        omega

/-! ### The coarsest grid -/

/-- The search goes from coarse grids to fine ones, so it ends no later than a grid with a point. -/
theorem exists_coarser {f : Format} {x : Magnitude} {k : Int} {d : Decimal}
    (h : x.onGrid? f k = some d) (hlow : k ≤ x.decimalBound)
    (hhigh : x.decimalBound - k < f.precision + 4) :
    ∃ k', k ≤ k' ∧ x.onGrid? f k' = some (x.shortest f) := by
  obtain ⟨i, hi⟩ : ∃ i : Nat, k = x.decimalBound - i := ⟨(x.decimalBound - k).toNat, by omega⟩
  have hmem : i ∈ List.range (f.precision + 4) := List.mem_range.mpr (by omega)
  have hfound : ((List.range (f.precision + 4)).findSome? fun (i : Nat) =>
      x.onGrid? f (x.decimalBound - i)).isSome := by
    rw [List.findSome?_isSome_iff]
    exact ⟨i, hmem, by rw [← hi, h]; rfl⟩
  obtain ⟨d', hd'⟩ := Option.isSome_iff_exists.mp hfound
  have hshortest : x.shortest f = d' := by
    unfold shortest
    simp only [hd', Option.getD_some]
  obtain ⟨coarser, j, finer, hsplit, hj, hnone⟩ := List.findSome?_eq_some_iff.mp hd'
  refine ⟨x.decimalBound - j, ?_, hshortest ▸ hj⟩
  have hsorted := @List.pairwise_lt_range (f.precision + 4)
  rw [hsplit, List.mem_append, List.mem_cons] at hmem
  rw [hsplit, List.pairwise_append, List.pairwise_cons] at hsorted
  rcases hmem with hmem | rfl | hmem
  · have hempty := hnone i hmem
    rw [← hi, h] at hempty
    cases hempty
  · exact le_of_eq hi
  · have hlt := hsorted.2.1.1 i hmem
    omega

/-- The number in whole units of one. -/
theorem IsWhole.num_eq {x : Magnitude} {e : Nat} (hx : x.IsWhole e) :
    x.num = 4 * x.mantissa * 2 ^ e := by
  have hexponent : x.exponent.toNat = e + 2 := by
    rw [hx.exponent_eq]
    rfl
  unfold num
  rw [hexponent, Nat.pow_eq]
  ring

theorem IsWhole.decimalBound_eq {x : Magnitude} {e : Nat} (hx : x.IsWhole e) :
    x.decimalBound = (Nat.toDigits 10 x.num).length + 1 := by
  have hden : x.den = 1 := by
    have hexponent : (-x.exponent).toNat = 0 := by
      rw [hx.exponent_eq]
      omega
    unfold den
    rw [hexponent, Nat.pow_eq, pow_zero]
  unfold decimalBound
  rw [hden, Nat.toString_eq_repr, ← String.length_toList, Nat.toList_repr]
  show ((Nat.toDigits 10 x.num).length : Int) - 1 + 2 = _
  ring

/-- **What is written for the number has as many zeros at its end as any number of its
    interval.** -/
theorem shortest_of_inInterval {x : Magnitude} {e a j : Nat} (hx : x.IsWhole e) (he : e < 60)
    (ha : 0 < a) (h : x.InInterval (2 ^ e) (a * 10 ^ j)) :
    ∃ k, j ≤ k ∧ (x.shortest .binary64).exponent = (k : Nat) ∧
      x.InInterval (2 ^ e) ((x.shortest .binary64).digits * 10 ^ k) := by
  obtain ⟨d, hd⟩ := exists_onGrid? hx.exponent_eq h
  have hbound := hx.decimalBound_eq
  have hsize : x.num < 10 ^ (Nat.toDigits 10 x.num).length :=
    (Nat.length_toDigits_le_iff (by decide) (List.length_pos_iff.mpr Nat.toDigits_ne_nil)).mp le_rfl
  have hlength : (Nat.toDigits 10 x.num).length ≤ 36 := by
    refine (Nat.length_toDigits_le_iff (by decide) (by decide)).mpr ?_
    have hmantissa := hx.mantissa_lt
    have hpow : 2 ^ e ≤ 2 ^ 60 := Nat.pow_le_pow_right (by decide) (Nat.le_of_lt he)
    calc x.num = 4 * x.mantissa * 2 ^ e := hx.num_eq
      _ ≤ 4 * 2 ^ 53 * 2 ^ 60 := by gcongr
      _ < 10 ^ 36 := by norm_num
  have hj : j < (Nat.toDigits 10 x.num).length + 1 := by
    have hhigh := h.high
    have hquarter : 2 ^ e ≤ x.num := by
      have hmantissa := hx.le_mantissa
      rw [hx.num_eq]
      exact Nat.le_mul_of_pos_left _ (by omega)
    rw [← hx.num_eq] at hhigh
    refine (Nat.pow_lt_pow_iff_right (by decide : 1 < 10)).mp ?_
    calc 10 ^ j ≤ a * 10 ^ j := Nat.le_mul_of_pos_left _ ha
      _ ≤ x.num + 2 * 2 ^ e := hhigh
      _ ≤ 10 * x.num := by omega
      _ < 10 * 10 ^ (Nat.toDigits 10 x.num).length := by omega
      _ = 10 ^ ((Nat.toDigits 10 x.num).length + 1) := (Nat.pow_succ').symm
  have hprecision : (Format.precision .binary64 : Int) = 53 := rfl
  obtain ⟨k, hk, hshortest⟩ := exists_coarser hd (by omega) (by omega)
  obtain ⟨k, rfl⟩ := Int.eq_ofNat_of_zero_le (le_trans (Int.natCast_nonneg j) hk)
  exact ⟨k, Int.ofNat_le.mp hk, inInterval_of_onGrid? hx.exponent_eq hshortest⟩

/-- What is written for the number is a whole number of its interval, and a power of ten that
    divides any of the interval divides it. -/
theorem exists_coarsest {x : Magnitude} {e s : Nat} (hx : x.IsWhole e) (he : e < 60) (hs : 0 < s)
    (h : x.InInterval (2 ^ e) s) :
    ∃ k, (x.shortest .binary64).exponent = (k : Nat) ∧
      x.InInterval (2 ^ e) ((x.shortest .binary64).digits * 10 ^ k) ∧
      ∀ {s j : Nat}, 0 < s → x.InInterval (2 ^ e) s → 10 ^ j ∣ s →
        10 ^ j ∣ (x.shortest .binary64).digits * 10 ^ k := by
  obtain ⟨k, -, hexponent, hinterval⟩ :=
    shortest_of_inInterval hx he hs (j := 0) (by rwa [pow_zero, Nat.mul_one])
  refine ⟨k, hexponent, hinterval, ?_⟩
  rintro s j hs h ⟨a, rfl⟩
  rw [Nat.mul_comm] at h hs
  obtain ⟨k', hk', hexponent', -⟩ :=
    shortest_of_inInterval hx he (Nat.pos_of_mul_pos_right hs) h
  obtain rfl : k' = k := by omega
  exact Dvd.dvd.mul_left (Nat.pow_dvd_pow 10 hk') _

theorem IsWhole.value_large {x : Magnitude} {e : Nat} (hx : x.IsWhole e) :
    2 ^ 52 * (4 * 2 ^ e) ≤ 4 * x.mantissa * 2 ^ e := by
  calc 2 ^ 52 * (4 * 2 ^ e) ≤ x.mantissa * (4 * 2 ^ e) := Nat.mul_le_mul_right _ hx.le_mantissa
    _ = 4 * x.mantissa * 2 ^ e := by ring

theorem slackBelow_mul_bounds (x : Magnitude) (quarter : Nat) :
    quarter ≤ x.slackBelow .binary64 * quarter ∧
      x.slackBelow .binary64 * quarter ≤ 2 * quarter := by
  rcases x.slackBelow_cases with ⟨-, h⟩ | ⟨-, h⟩ <;> rw [h] <;> omega

/-- No number that is a whole one of full length has zero in its interval. -/
theorem InInterval.pos {x : Magnitude} {e r : Nat} (h : x.InInterval (2 ^ e) r)
    (hx : x.IsWhole e) : 0 < r := by
  have hlow := h.low
  have hvalue := hx.value_large
  have hslack := (x.slackBelow_mul_bounds (2 ^ e)).2
  have hpos := Nat.two_pow_pos e
  omega

/-- Where half a thousand is less than any slack, the nearest thousand is in the interval. -/
theorem inInterval_thousand {x : Magnitude} {quarter : Nat} (hquarter : 512 ≤ quarter) :
    x.InInterval quarter ((4 * x.mantissa * quarter + 500) / 1000 * 1000) := by
  have hslack := (x.slackBelow_mul_bounds quarter).1
  constructor <;> omega

/-- An interval that is no wider than 4096 has at most one number that ends in four zeros. -/
theorem InInterval.eq_of_dvd {x : Magnitude} {quarter n r : Nat} (hquarter : quarter ≤ 1024)
    (hn : x.InInterval quarter n) (hr : x.InInterval quarter r) (hdvd : 10000 ∣ n)
    (hdvd' : 10000 ∣ r) : r = n := by
  have hslack := (x.slackBelow_mul_bounds quarter).2
  have hlow := hn.low
  have hhigh := hn.high
  have hlow' := hr.low
  have hhigh' := hr.high
  omega

end Magnitude

/-! ### What is written -/

/-- A decimal without a fraction is written as a whole number. -/
theorem Decimal.positional_eq_toString {d : Decimal} {k : Nat} (hk : d.exponent = k)
    (hd : 0 < d.digits) : d.positional = toString (d.digits * 10 ^ k) := by
  apply String.toList_inj.mp
  rw [positional_of_whole (by omega), hk, Int.toNat_natCast, Nat.toString_eq_repr, Nat.toList_repr,
    toDigits_mul_pow hd]

theorem Format.ofInt_natCast {f : Format} {n : Nat} {x : Magnitude} (h : f.nearest? n 1 = some x) :
    f.ofInt n = .finite false x := by
  unfold ofInt nearest
  rw [Int.natAbs_natCast, h, decide_eq_false (Int.not_lt.mpr (Int.natCast_nonneg n))]

theorem Format.nearest?_of_ofInt {f : Format} {n : Nat} {x : Magnitude}
    (h : f.ofInt n = .finite false x) : f.nearest? n 1 = some x := by
  unfold ofInt nearest at h
  rw [Int.natAbs_natCast] at h
  split at h
  · rename_i x' hx'
    rw [hx', (Floating.finite.inj h).2]
  · cases h

/-- No whole number of 64 bits is too large. -/
theorem Format.isFinite_ofInt {n : Nat} (hn : n < 2 ^ 64) :
    (ofInt .binary64 n).isFinite = true := by
  unfold ofInt
  rw [isFinite_nearest _ _ one_ne_zero, Int.natAbs_natCast, Nat.cast_one, div_one]
  calc (n : ℚ) < 2 ^ (64 : ℤ) := by exact_mod_cast hn
    _ ≤ 2 ^ (maxExponent .binary64 + precision .binary64 - 1) :=
      zpow_le_zpow_right₀ one_le_two (by decide)
    _ ≤ overflow .binary64 := (overflow_spec .binary64).1

/-- A whole number of 64 bits that needs the last of them is in the interval of a number whose
    unit is 2048 or 4096. -/
theorem Format.exists_inInterval_large {n : Nat} (hlow : 2 ^ 63 ≤ n) (hhigh : n < 2 ^ 64) :
    ∃ x e, nearest? .binary64 n 1 = some x ∧ x.IsWhole (e + 1) ∧
      x.InInterval (2 ^ (e + 1)) n ∧ (e = 8 ∨ e = 9) := by
  obtain ⟨x, e, hx, hwhole, hn, rfl | rfl⟩ :=
    Magnitude.exists_inInterval (show 2 ^ (9 + 54) ≤ n from hlow) hhigh (by decide)
  · exact ⟨x, 8, hx, hwhole, hn, .inl rfl⟩
  · exact ⟨x, 9, hx, hwhole, hn, .inr rfl⟩

/-- **What is written for a whole number of 64 bits that needs the last of them.**  It is a whole
    number that is rounded to the same number of binary64, and it has as many zeros at its end as
    any that is.  It has at least three zeros, so it is the number itself only if that ends in
    three; if that ends in four, it is. -/
theorem Format.text_ofInt_large {n : Nat} (hlow : 2 ^ 63 ≤ n) (hhigh : n < 2 ^ 64) :
    ∃ r : Nat, (ofInt .binary64 n).text .binary64 = toString r ∧
      ofInt .binary64 r = ofInt .binary64 n ∧
      (∀ s j : Nat, 0 < s → ofInt .binary64 s = ofInt .binary64 n → 10 ^ j ∣ s → 10 ^ j ∣ r) ∧
      1000 ∣ r ∧ (10000 ∣ n → r = n) := by
  obtain ⟨x, e, hx, hwhole, hn, he⟩ := exists_inInterval_large hlow hhigh
  have hquarter : 512 ≤ 2 ^ (e + 1) ∧ 2 ^ (e + 1) ≤ 1024 := by
    rcases he with rfl | rfl <;> decide
  have hofInt := ofInt_natCast hx
  obtain ⟨k, hexponent, hr, hcoarsest⟩ :=
    Magnitude.exists_coarsest hwhole (by omega) (by omega : 0 < n) hn
  have hpos := hr.pos hwhole
  refine ⟨(x.shortest .binary64).digits * 10 ^ k, ?_, ?_, ?_, ?_, ?_⟩
  · have hmantissa : x.mantissa ≠ 0 := by
      have := hwhole.le_mantissa
      omega
    rw [hofInt, ← Decimal.positional_eq_toString hexponent (Nat.pos_of_mul_pos_right hpos)]
    simp [Floating.text, hmantissa]
  · rw [hofInt, ofInt_natCast (Magnitude.nearest?_of_inInterval hwhole (by omega) hr)]
  · intro s j hs h hdvd
    rw [hofInt] at h
    have hinterval :=
      (Magnitude.nearest?_iff_inInterval hwhole (by omega) s).mp (nearest?_of_ofInt h)
    exact hcoarsest hs hinterval hdvd
  · have hthousand := Magnitude.inInterval_thousand (x := x) hquarter.1
    exact hcoarsest (j := 3) (hthousand.pos hwhole) hthousand (Nat.dvd_mul_left _ _)
  · intro hdvd
    have hdvd' := hcoarsest (j := 4) (by omega) hn hdvd
    exact hn.eq_of_dvd hquarter.2 hr hdvd hdvd'

end SeriesQuery
