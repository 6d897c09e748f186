/-
Runs of decimal digits.

A run of digits stands for a number below the power of ten that has as many zeros as the run has
digits.  Leading zeros change nothing about the number, a zero at the end makes it ten times as
large, and the run that a number is printed as is the shortest of those that stand for it.
-/
import Mathlib.Algebra.Ring.Nat
import SeriesQuery.Floating.Numeral
import SeriesQuery.Proofs.Text.Blank

namespace SeriesQuery

open Text

theorem ofDigitChars_cons_eq (c : Char) (ds : List Char) :
    Nat.ofDigitChars 10 (c :: ds) 0 =
      10 ^ ds.length * (c.toNat - '0'.toNat) + Nat.ofDigitChars 10 ds 0 := by
  rw [Nat.ofDigitChars_cons, Nat.ofDigitChars_eq_ofDigitChars_zero, Nat.mul_zero, Nat.zero_add]

theorem ofDigitChars_lt {ds : List Char} (h : ∀ c ∈ ds, c.isDigit = true) :
    Nat.ofDigitChars 10 ds 0 < 10 ^ ds.length := by
  induction ds with
  | nil => simp
  | cons c ds ih =>
      have hrest := ih fun d hd => h d (List.mem_cons_of_mem _ hd)
      have hdigit := toNat_of_isDigit (h c List.mem_cons_self)
      have hfirst : c.toNat - '0'.toNat ≤ 9 := by
        show c.toNat - 48 ≤ 9
        omega
      rw [ofDigitChars_cons_eq, List.length_cons, Nat.pow_succ]
      have := Nat.mul_le_mul_left (10 ^ ds.length) hfirst
      omega

/-- Runs of digits of one length that stand for the same number are the same. -/
theorem eq_of_ofDigitChars_eq {ds es : List Char} (hds : ∀ c ∈ ds, c.isDigit = true)
    (hes : ∀ c ∈ es, c.isDigit = true) (hlength : ds.length = es.length)
    (h : Nat.ofDigitChars 10 ds 0 = Nat.ofDigitChars 10 es 0) : ds = es := by
  induction ds generalizing es with
  | nil => exact (List.length_eq_zero_iff.mp hlength.symm).symm
  | cons c ds ih =>
      cases es with
      | nil => cases hlength
      | cons d es =>
          have hds' : ∀ x ∈ ds, x.isDigit = true := fun x hx => hds x (List.mem_cons_of_mem _ hx)
          have hes' : ∀ x ∈ es, x.isDigit = true := fun x hx => hes x (List.mem_cons_of_mem _ hx)
          have hlength' : ds.length = es.length := Nat.succ.inj hlength
          have hrest := ofDigitChars_lt hds'
          have hrest' := ofDigitChars_lt hes'
          rw [ofDigitChars_cons_eq, ofDigitChars_cons_eq, hlength'] at h
          rw [hlength'] at hrest
          -- The first digit is the quotient by the power of ten, the rest is the remainder.
          have hpow : 0 < 10 ^ es.length := Nat.pow_pos (by decide)
          have hfirst := congrArg (· / 10 ^ es.length) h
          have hothers := congrArg (· % 10 ^ es.length) h
          simp only [Nat.mul_add_div hpow, Nat.div_eq_of_lt hrest, Nat.div_eq_of_lt hrest',
            Nat.add_zero] at hfirst
          simp only [Nat.mul_add_mod, Nat.mod_eq_of_lt hrest, Nat.mod_eq_of_lt hrest'] at hothers
          have hc := toNat_of_isDigit (hds c List.mem_cons_self)
          have hd := toNat_of_isDigit (hes d List.mem_cons_self)
          have hcd : c = d := by
            have hzero : '0'.toNat = 48 := rfl
            apply Char.toNat_inj.mp
            omega
          rw [hcd, ih hds' hes' hlength' hothers]

/-- Any other run of digits for a number is longer than its plain digits. -/
theorem length_toDigits_lt {ds : List Char} (hne : ds ≠ []) (h : ∀ c ∈ ds, c.isDigit = true)
    (hother : ds ≠ Nat.toDigits 10 (Nat.ofDigitChars 10 ds 0)) :
    (Nat.toDigits 10 (Nat.ofDigitChars 10 ds 0)).length < ds.length := by
  have hle : (Nat.toDigits 10 (Nat.ofDigitChars 10 ds 0)).length ≤ ds.length :=
    (Nat.length_toDigits_le_iff (by decide) (List.length_pos_iff.mpr hne)).mpr (ofDigitChars_lt h)
  refine Nat.lt_of_le_of_ne hle fun hlength => hother ?_
  have hplain : ∀ c ∈ Nat.toDigits 10 (Nat.ofDigitChars 10 ds 0), c.isDigit = true :=
    fun c hc => Nat.isDigit_of_mem_toDigits (by decide) (by decide) hc
  exact eq_of_ofDigitChars_eq h hplain hlength.symm Nat.ofDigitChars_ten_toDigits.symm

theorem pow_le_of_length_toDigits {n k : Nat} (hn : n ≠ 0)
    (h : (Nat.toDigits 10 n).length = k + 1) : 10 ^ k ≤ n := by
  cases k with
  | zero => exact Nat.pos_of_ne_zero hn
  | succ k =>
      refine Nat.le_of_not_lt fun hlt => ?_
      have hle := (Nat.length_toDigits_le_iff (by decide) (Nat.succ_pos k)).mpr hlt
      omega

/-- No zero stands in front of a number but zero. -/
theorem toDigits_ne_zero_cons {n : Nat} (hn : n ≠ 0) (r : List Char) :
    Nat.toDigits 10 n ≠ '0' :: r := by
  intro hcons
  have hlow : 10 ^ r.length ≤ n := pow_le_of_length_toDigits hn (by rw [hcons, List.length_cons])
  have hdigits : ∀ c ∈ r, c.isDigit = true := fun c hc =>
    Nat.isDigit_of_mem_toDigits (by decide) (by decide) (hcons ▸ List.mem_cons_of_mem '0' hc)
  have hvalue : Nat.ofDigitChars 10 r 0 = n := by
    have h := Nat.ofDigitChars_ten_toDigits (n := n)
    rw [hcons, ofDigitChars_cons_eq] at h
    simpa using h
  have hlt := ofDigitChars_lt hdigits
  omega

/-- Zeros at the end make a number so many times ten times as large. -/
theorem toDigits_mul_pow {n : Nat} (hn : 0 < n) (k : Nat) :
    Nat.toDigits 10 (n * 10 ^ k) = Nat.toDigits 10 n ++ List.replicate k '0' := by
  induction k with
  | zero => simp
  | succ k ih =>
      have hpos : 0 < n * 10 ^ k := Nat.mul_pos hn (Nat.pow_pos (by decide))
      have happend := Nat.toDigits_append_toDigits (by decide : 1 < 10) hpos (by decide : 0 < 10)
      rw [Nat.add_zero, ih, List.append_assoc] at happend
      rw [Nat.pow_succ', Nat.mul_left_comm, ← happend, List.replicate_succ']
      rfl

namespace Numeral

theorem valueOf_toDigits (n : Nat) : valueOf (Nat.toDigits 10 n) = n :=
  Nat.ofDigitChars_ten_toDigits

theorem valueOf_append (ds es : List Char) :
    valueOf (ds ++ es) = 10 ^ es.length * valueOf ds + valueOf es := by
  unfold valueOf
  rw [Nat.ofDigitChars_append, Nat.ofDigitChars_eq_ofDigitChars_zero]

theorem valueOf_zeros_append (k : Nat) (ds : List Char) :
    valueOf (List.replicate k '0' ++ ds) = valueOf ds := by
  unfold valueOf
  rw [Nat.ofDigitChars_append, Nat.ofDigitChars_replicate_zero, Nat.mul_zero]

theorem valueOf_append_zeros (ds : List Char) (k : Nat) :
    valueOf (ds ++ List.replicate k '0') = 10 ^ k * valueOf ds := by
  unfold valueOf
  rw [Nat.ofDigitChars_append, Nat.ofDigitChars_replicate_zero]

theorem isDigit_of_mem_toDigits {n : Nat} : ∀ c ∈ Nat.toDigits 10 n, c.isDigit = true :=
  fun _ hc => Nat.isDigit_of_mem_toDigits (by decide) (by decide) hc

theorem isDigit_of_mem_zeros {k : Nat} : ∀ c ∈ List.replicate k '0', c.isDigit = true := by
  intro c hc
  rw [List.eq_of_mem_replicate hc]
  decide

end Numeral

end SeriesQuery
