/-
Whole numbers in JSON texts.

A whole number in decimal is a word.  It is read as itself while 64 bits hold it, with a sign if it
has a minus and without one otherwise; neither reading is ever tried on a number that the other is
for, so the two ranges overlap without harm.
-/
import SeriesQuery.Proofs.Json.Reading
import SeriesQuery.Proofs.Literal
import SeriesQuery.Proofs.Text.DigitRuns

namespace SeriesQuery.Json

open Text Text.Reader

/-- The word that writes the whole number in decimal. -/
def integerWord (n : Int) : Word where
  text := (toString n).toList
  nonempty := by
    cases n with
    | ofNat n =>
        obtain ⟨c, cs, hcons, -⟩ := exists_first_digit n
        show (toString n).toList ≠ []
        rw [hcons]
        exact List.cons_ne_nil c cs
    | negSucc n =>
        rw [toList_negSucc]
        exact List.cons_ne_nil _ _
  chars := by
    cases n with
    | ofNat n => exact fun c hc => isWordChar_of_isDigit (isDigit_of_mem_toString hc)
    | negSucc n =>
        rw [toList_negSucc]
        exact List.forall_mem_cons.mpr
          ⟨by decide, fun c hc => isWordChar_of_isDigit (isDigit_of_mem_toString hc)⟩

/-- Decimal digits are read to their end. -/
theorem wholeDigits_toDigits (n : Nat) :
    wholeDigits (Nat.toDigits 10 n) = some (Nat.toDigits 10 n, []) := by
  by_cases hzero : n = 0
  · subst hzero
    rfl
  · have hspan : span1 Char.isDigit (Nat.toDigits 10 n) = some (Nat.toDigits 10 n, []) := by
      have hdigits : ∀ c ∈ Nat.toDigits 10 n, c.isDigit = true := Numeral.isDigit_of_mem_toDigits
      have h := span_append hdigits (endsRun_nil _)
      rw [List.append_nil] at h
      exact span1_eq_some_iff.mpr ⟨h, Nat.toDigits_ne_nil⟩
    unfold wholeDigits
    split
    · rename_i r hcons
      exact absurd hcons (toDigits_ne_zero_cons hzero r)
    · exact hspan

/-- A number with neither a fraction nor an exponent is its whole digits. -/
theorem numberTail_nil (negative : Bool) {whole : List Char} {d : Document}
    (h : numberOf? negative whole none none = some d) :
    numberTail negative whole [] = some (d, []) := by
  unfold numberTail
  rw [bind_of_eq_some (optional_of_eq_none rfl), bind_of_eq_some (optional_of_eq_none rfl), h]
  rfl

theorem number_toString {n : Int} (hlow : -0x8000_0000_0000_0000 ≤ n)
    (hhigh : n < UInt64.size) : number (toString n).toList = some (.integer n, []) := by
  rw [number_eq]
  cases n with
  | ofNat n =>
      have hdigits : (toString (Int.ofNat n)).toList = Nat.toDigits 10 n := by
        show (toString n).toList = _
        rw [Nat.toString_eq_repr, Nat.toList_repr]
      have hminus : Reader.char '-' (Nat.toDigits 10 n) = none := by
        obtain ⟨c, cs, hcons, hc⟩ := exists_first_digit n
        rw [Nat.toString_eq_repr, Nat.toList_repr] at hcons
        rw [hcons]
        refine if_neg ?_
        rintro rfl
        cases hc
      rw [hdigits, bind_of_eq_some (optional_of_eq_none hminus),
        bind_of_eq_some (wholeDigits_toDigits n)]
      refine numberTail_nil false ?_
      have hsize : n < UInt64.size := Int.ofNat_lt.mp hhigh
      simp [numberOf?, Numeral.valueOf_toDigits, hsize]
  | negSucc n =>
      have hdigits : (toString (Int.negSucc n)).toList = '-' :: Nat.toDigits 10 (n + 1) := by
        rw [toList_negSucc, Nat.toString_eq_repr, Nat.toList_repr]
      have hminus (s : List Char) :
          (Reader.char '-').optional ('-' :: s) = some (some (), s) := rfl
      rw [hdigits, bind_of_eq_some (hminus _), bind_of_eq_some (wholeDigits_toDigits (n + 1))]
      refine numberTail_nil true ?_
      have hsize : n + 1 ≤ 0x8000_0000_0000_0000 := by omega
      have hvalue : Int.negSucc n = -((n + 1 : Nat) : Int) := rfl
      simp only [numberOf?, Numeral.valueOf_toDigits, hvalue]
      simp [hsize]

/-- **A whole number that 64 bits hold is read as itself**: below zero with a sign, from zero on
    without one. -/
theorem read_integerWord {n : Int} (hlow : -0x8000_0000_0000_0000 ≤ n)
    (hhigh : n < UInt64.size) (depth : Nat) :
    (Tree.word (integerWord n)).read depth = some (.integer n) := by
  have hread : (Tree.word (integerWord n)).read depth = whole scalar (integerWord n).text := by
    cases depth <;> rfl
  rw [hread, whole_eq_some_iff, (integerWord n).scalar_eq_unquoted]
  exact orElse_of_eq_some (number_toString hlow hhigh)

end SeriesQuery.Json
