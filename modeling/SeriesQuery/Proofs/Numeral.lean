/-
The characters of numerals.

Reading a numeral takes characters off the front of a text, and every character it takes is a
digit, a sign, a point or the letter of an exponent.  So a text that is a numeral as a whole
has no other character in it, and a fill option none that could be taken for a gap.
-/
import SeriesQuery.Fill
import SeriesQuery.Proofs.Text.Taking

namespace SeriesQuery

namespace Numeral

open Text Text.Reader

/-- A character that a numeral may have. -/
def IsMark (c : Char) : Prop :=
  c.isDigit = true ∨ c ∈ ['+', '-', '.', 'e', 'E']

theorem takes_sign : Takes IsMark sign := by
  intro s negative rest h
  unfold sign at h
  split at h <;> cases h
  · exact (Takes.pure ()).behind (Or.inr (by decide)) rfl
  · exact (Takes.pure ()).behind (Or.inr (by decide)) rfl
  · exact ⟨[], rfl, by simp⟩

theorem takes_digits : Takes IsMark (span Char.isDigit) :=
  Takes.span fun _ => Or.inl

theorem takes_signedDigits : Takes IsMark signedDigits :=
  takes_sign.bind fun _ => (Takes.span1 fun _ => Or.inl).bind fun _ => Takes.pure _

theorem takes_exponentPart : Takes IsMark exponentPart := by
  intro s exponent rest h
  unfold exponentPart at h
  split at h
  · exact takes_signedDigits.behind (Or.inr (by decide)) h
  · exact takes_signedDigits.behind (Or.inr (by decide)) h
  · cases h
    exact ⟨[], rfl, by simp⟩

theorem takes_fractionPart : Takes IsMark fractionPart := by
  intro s digits rest h
  unfold fractionPart at h
  split at h
  · exact takes_digits.behind (Or.inr (by decide)) h
  · cases h
    exact ⟨[], rfl, by simp⟩

theorem takes_read : Takes IsMark read := by
  unfold read
  refine takes_sign.bind fun negative => takes_digits.bind fun whole =>
    takes_fractionPart.bind fun fraction => ?_
  have hrest : Takes IsMark (do
      let exponent ← exponentPart
      Pure.pure (⟨negative, valueOf (whole ++ fraction), exponent - fraction.length⟩ : Numeral)) :=
    takes_exponentPart.bind fun _ => Takes.pure _
  split
  · exact Takes.failure.bind fun _ => hrest
  · exact hrest

/-- A numeral has no characters but its own. -/
theorem isMark_of_mem {s : List Char} (h : isFiniteText s = true) : ∀ c ∈ s, IsMark c := by
  unfold isFiniteText at h
  split at h
  · rename_i n hn
    exact takes_read.of_whole hn
  · cases h

end Numeral

namespace Fill

/-- What stands between the parentheses of a fill is something, and has no space in it. -/
theorem text_of_compile {fill : Fill} {text : String} (h : fill.compile = .ok text) :
    text ≠ "" ∧ ' ' ∉ text.toList := by
  unfold compile at h
  split at h
  · rename_i n
    split at h
    · rename_i hfinite
      cases h
      refine ⟨?_, ?_⟩
      · rintro rfl
        exact absurd hfinite (by decide)
      · intro hspace
        rcases Numeral.isMark_of_mem hfinite ' ' hspace with hdigit | hmark
        · cases hdigit
        · exact absurd hmark (by decide)
    · cases h
  · rename_i hkeyword
    cases h
    cases fill with
    | number n => exact absurd rfl (hkeyword n)
    | _ => decide

end Fill
end SeriesQuery
