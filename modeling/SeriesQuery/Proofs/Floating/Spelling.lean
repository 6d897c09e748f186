/-
How numerals are written.

A numeral is a sign, digits with a point before, behind or between them, and an exponent; all but
one digit may be missing.  `Spelling` puts this down without a reader: the parts, each of its own
characters, and the text and the number that they make up.  No part can start with a character of
the part before it, so the reader, which takes each part as far as it goes, reads a text as a
numeral exactly when the text has a spelling, and reads the number that the spelling names.
-/
import SeriesQuery.Proofs.Floating.Overflow
import SeriesQuery.Proofs.Text.Taking

namespace SeriesQuery.Numeral

open Text

/-! ### Spellings -/

/-- No sign, a plus or a minus. -/
def signs : List (List Char) := [[], ['+'], ['-']]

/-- The exponent of a numeral. -/
structure Exponent where
  letter : Char
  sign : List Char
  digits : List Char
  letter_mem : letter ∈ ['e', 'E']
  sign_mem : sign ∈ signs
  digits_ne : digits ≠ []
  digits_isDigit : ∀ c ∈ digits, c.isDigit = true

namespace Exponent

/-- The exponent as it is written. -/
def text (x : Exponent) : List Char :=
  x.letter :: (x.sign ++ x.digits)

/-- The power of ten that is meant. -/
def value (x : Exponent) : Int :=
  if x.sign = ['-'] then -(valueOf x.digits : Int) else valueOf x.digits

end Exponent

/-- The parts of a numeral. -/
structure Spelling where
  sign : List Char
  whole : List Char
  /-- The digits behind the point, if there is a point. -/
  fraction : Option (List Char)
  exponent : Option Exponent
  sign_mem : sign ∈ signs
  whole_isDigit : ∀ c ∈ whole, c.isDigit = true
  fraction_isDigit : ∀ ds ∈ fraction, ∀ c ∈ ds, c.isDigit = true
  /-- There is a digit before the point or behind it. -/
  digits_ne : whole ++ fraction.getD [] ≠ []

namespace Spelling

/-- The numeral as it is written. -/
def text (w : Spelling) : List Char :=
  w.sign ++ (w.whole ++ (w.fraction.elim [] ('.' :: ·) ++ w.exponent.elim [] Exponent.text))

/-- The number that is meant: all digits, and as many places fewer as stand behind the point. -/
def numeral (w : Spelling) : Numeral where
  negative := w.sign = ['-']
  digits := valueOf (w.whole ++ w.fraction.getD [])
  exponent := w.exponent.elim 0 Exponent.value - (w.fraction.getD []).length

end Spelling

/-! ### Reading the parts -/

/-- What is neither a plus nor a minus. -/
def NoSign (s : List Char) : Prop :=
  ∀ c r, s = c :: r → c ≠ '+' ∧ c ≠ '-'

theorem noSign_digits {ds : List Char} (hds : ∀ c ∈ ds, c.isDigit = true) (hne : ds ≠ [])
    (rest : List Char) : NoSign (ds ++ rest) := by
  intro c r h
  cases ds with
  | nil => exact absurd rfl hne
  | cons d ds =>
      obtain ⟨rfl, -⟩ := List.cons.inj h
      have hd := hds _ List.mem_cons_self
      constructor <;> (rintro rfl; exact absurd hd (by decide))

theorem sign_append {sg rest : List Char} (hsg : sg ∈ signs) (hrest : NoSign rest) :
    sign (sg ++ rest) = some (decide (sg = ['-']), rest) := by
  simp only [signs, List.mem_cons, List.not_mem_nil, or_false] at hsg
  rcases hsg with rfl | rfl | rfl
  · cases rest with
    | nil => rfl
    | cons c r =>
        obtain ⟨hplus, hminus⟩ := hrest c r rfl
        unfold sign
        split
        · rename_i h
          cases h
          exact absurd rfl hminus
        · rename_i h
          cases h
          exact absurd rfl hplus
        · rfl
  · rfl
  · rfl

theorem exists_sign {s rest : List Char} {negative : Bool} (h : sign s = some (negative, rest)) :
    ∃ sg ∈ signs, s = sg ++ rest ∧ negative = decide (sg = ['-']) := by
  unfold sign at h
  split at h <;> cases h
  · exact ⟨['-'], by decide, rfl, rfl⟩
  · exact ⟨['+'], by decide, rfl, rfl⟩
  · exact ⟨[], by decide, rfl, rfl⟩

/-- A whole number is its digits, behind a sign that may be missing. -/
theorem signedDigits_eq_some_iff {s : List Char} {n : Int} :
    signedDigits s = some (n, []) ↔ ∃ sg ∈ signs, ∃ ds ≠ [], (∀ c ∈ ds, c.isDigit = true) ∧
      s = sg ++ ds ∧ n = if sg = ['-'] then -(valueOf ds : Int) else valueOf ds := by
  have hread : signedDigits s = (sign s).bind fun x => (Reader.span1 Char.isDigit x.2).bind fun y =>
      some (if x.1 then -(valueOf y.1 : Int) else valueOf y.1, y.2) := by
    unfold signedDigits
    simp only [Reader.bind_apply]
    rfl
  rw [hread]
  constructor
  · intro h
    obtain ⟨⟨negative, between⟩, hsign, h⟩ := Option.bind_eq_some_iff.mp h
    obtain ⟨⟨ds, rest⟩, hdigits, h⟩ := Option.bind_eq_some_iff.mp h
    obtain ⟨sg, hsg, rfl, rfl⟩ := exists_sign hsign
    obtain ⟨hspan, hne⟩ := Reader.span1_eq_some_iff.mp hdigits
    obtain ⟨hds, rfl⟩ := Reader.exists_span hspan
    cases h
    exact ⟨sg, hsg, ds, hne, hds, by rw [List.append_nil], by simp⟩
  · rintro ⟨sg, hsg, ds, hne, hds, rfl, rfl⟩
    have hnosign : NoSign ds := by simpa using noSign_digits hds hne []
    have hspan : Reader.span Char.isDigit ds = some (ds, []) := by
      simpa using Reader.span_append hds (endsRun_nil Char.isDigit)
    rw [sign_append hsg hnosign, Option.bind_some, Reader.span1_eq_some_iff.mpr ⟨hspan, hne⟩,
      Option.bind_some]
    simp

/-- What may stand behind the digits of a numeral: nothing, or an exponent. -/
theorem exponentPart_eq_some_iff {s : List Char} {n : Int} :
    exponentPart s = some (n, []) ↔ ∃ x : Option Exponent,
      s = x.elim [] Exponent.text ∧ n = x.elim 0 Exponent.value := by
  constructor
  · intro h
    have hletter {c : Char} {r : List Char} (hc : c ∈ ['e', 'E'])
        (hr : signedDigits r = some (n, [])) : ∃ x : Option Exponent,
          c :: r = x.elim [] Exponent.text ∧ n = x.elim 0 Exponent.value := by
      obtain ⟨sg, hsg, ds, hne, hds, rfl, rfl⟩ := signedDigits_eq_some_iff.mp hr
      exact ⟨some ⟨c, sg, ds, hc, hsg, hne, hds⟩, rfl, rfl⟩
    unfold exponentPart at h
    split at h
    · exact hletter (by decide) h
    · exact hletter (by decide) h
    · cases h
      exact ⟨none, rfl, rfl⟩
  · rintro ⟨x, rfl, rfl⟩
    cases x with
    | none => rfl
    | some x =>
        have hdigits : signedDigits (x.sign ++ x.digits) = some (x.value, []) :=
          signedDigits_eq_some_iff.mpr
            ⟨x.sign, x.sign_mem, x.digits, x.digits_ne, x.digits_isDigit, rfl, rfl⟩
        show exponentPart (x.letter :: (x.sign ++ x.digits)) = _
        have hletter := x.letter_mem
        simp only [List.mem_cons, List.not_mem_nil, or_false] at hletter
        rcases hletter with h | h <;> (rw [h]; exact hdigits)

theorem exists_fractionPart {s rest ds : List Char} (h : fractionPart s = some (ds, rest)) :
    ∃ fraction : Option (List Char), ds = fraction.getD [] ∧
      (∀ ds ∈ fraction, ∀ c ∈ ds, c.isDigit = true) ∧ s = fraction.elim [] ('.' :: ·) ++ rest := by
  unfold fractionPart at h
  split at h
  · obtain ⟨hds, rfl⟩ := Reader.exists_span h
    refine ⟨some ds, rfl, ?_, rfl⟩
    rintro _ ⟨⟩
    exact hds
  · cases h
    exact ⟨none, rfl, by simp, rfl⟩

theorem fractionPart_append {fraction : Option (List Char)} {rest : List Char}
    (hds : ∀ ds ∈ fraction, ∀ c ∈ ds, c.isDigit = true)
    (hrest : EndsRun (fun c => c.isDigit || c == '.') rest) :
    fractionPart (fraction.elim [] ('.' :: ·) ++ rest) = some (fraction.getD [], rest) := by
  cases fraction with
  | some ds => exact Reader.span_append (hds ds rfl) (hrest.mono fun c hc => by simp [hc])
  | none =>
      cases rest with
      | nil => rfl
      | cons c r =>
          have hc := hrest c r rfl
          show fractionPart (c :: r) = _
          unfold fractionPart
          split
          · rename_i h
            cases h
            exact absurd hc (by decide)
          · rfl

/-! ### Reading the whole -/

/-- The reader, part by part. -/
theorem read_apply (s : List Char) :
    read s = (sign s).bind fun x => (Reader.span Char.isDigit x.2).bind fun y =>
      (fractionPart y.2).bind fun z => if y.1 ++ z.1 = [] then none else
        (exponentPart z.2).bind fun u =>
          some (⟨x.1, valueOf (y.1 ++ z.1), u.1 - z.1.length⟩, u.2) := by
  unfold read
  simp only [Reader.bind_apply]
  refine Option.bind_congr fun x _ => Option.bind_congr fun y _ => Option.bind_congr fun z _ => ?_
  have hempty : (y.1.isEmpty && z.1.isEmpty) = true ↔ y.1 ++ z.1 = [] := by simp
  simp only [hempty]
  split
  · rfl
  · exact Reader.bind_apply exponentPart _ z.2

namespace Spelling

theorem noSign_behind (w : Spelling) :
    NoSign (w.whole ++ (w.fraction.elim [] ('.' :: ·) ++ w.exponent.elim [] Exponent.text)) := by
  by_cases hwhole : w.whole = []
  · cases hfraction : w.fraction with
    | none =>
        have hne := w.digits_ne
        rw [hwhole, hfraction] at hne
        exact absurd rfl hne
    | some ds =>
        rw [hwhole]
        intro c r h
        cases h
        decide
  · exact noSign_digits w.whole_isDigit hwhole _

theorem endsRun_exponent (x : Option Exponent) :
    EndsRun (fun c => c.isDigit || c == '.') (x.elim [] Exponent.text) := by
  cases x with
  | none => exact endsRun_nil _
  | some x =>
      refine endsRun_cons ?_ _
      have hletter := x.letter_mem
      simp only [List.mem_cons, List.not_mem_nil, or_false] at hletter
      rcases hletter with h | h <;> (rw [h]; decide)

theorem endsRun_fraction (w : Spelling) :
    EndsRun Char.isDigit (w.fraction.elim [] ('.' :: ·) ++ w.exponent.elim [] Exponent.text) := by
  cases w.fraction with
  | none => exact (endsRun_exponent w.exponent).mono fun c hc => by simp [hc]
  | some ds => exact endsRun_cons (by decide) _

end Spelling

/-- **A text is read as a numeral exactly when it has a spelling**, and what is read is the number
    that the spelling names. -/
theorem ofText?_eq_some_iff {s : List Char} {n : Numeral} :
    ofText? s = some n ↔ ∃ w : Spelling, w.text = s ∧ w.numeral = n := by
  unfold ofText?
  rw [Reader.whole_eq_some_iff, read_apply]
  constructor
  · intro h
    obtain ⟨⟨negative, behindSign⟩, hsign, h⟩ := Option.bind_eq_some_iff.mp h
    obtain ⟨⟨whole, behindWhole⟩, hwhole, h⟩ := Option.bind_eq_some_iff.mp h
    obtain ⟨⟨ds, behindFraction⟩, hfraction, h⟩ := Option.bind_eq_some_iff.mp h
    split at h
    · cases h
    rename_i hne
    obtain ⟨⟨exponent, rest⟩, hexponent, h⟩ := Option.bind_eq_some_iff.mp h
    cases h
    obtain ⟨sg, hsg, rfl, rfl⟩ := exists_sign hsign
    obtain ⟨hdigits, rfl⟩ := Reader.exists_span hwhole
    obtain ⟨fraction, rfl, hfractionDigits, rfl⟩ := exists_fractionPart hfraction
    obtain ⟨x, rfl, rfl⟩ := exponentPart_eq_some_iff.mp hexponent
    exact ⟨⟨sg, whole, fraction, x, hsg, hdigits, hfractionDigits, hne⟩, rfl, rfl⟩
  · rintro ⟨w, rfl, rfl⟩
    have hexponent := exponentPart_eq_some_iff.mpr ⟨w.exponent, rfl, rfl⟩
    rw [Spelling.text, sign_append w.sign_mem w.noSign_behind, Option.bind_some,
      Reader.span_append w.whole_isDigit w.endsRun_fraction, Option.bind_some,
      fractionPart_append w.fraction_isDigit (Spelling.endsRun_exponent w.exponent),
      Option.bind_some, if_neg w.digits_ne, hexponent]
    rfl

/-! ### Finite numerals -/

/-- The text is a numeral, and its number is nearer to zero than half a unit above the largest
    number of binary64: its nearest datum is a number. -/
def IsFiniteNumeral (s : List Char) : Prop :=
  ∃ w : Spelling, w.text = s ∧ w.numeral.absValue < 2 ^ 1024 - 2 ^ 970

theorem isFiniteText_iff {s : List Char} : isFiniteText s = true ↔ IsFiniteNumeral s := by
  have hbound (n : Numeral) : (n.toFloating .binary64).isFinite = true ↔
      n.absValue < 2 ^ 1024 - 2 ^ 970 := by
    rw [isFinite_toFloating, Format.overflow_binary64]
  unfold isFiniteText IsFiniteNumeral
  cases hs : ofText? s with
  | none =>
      refine iff_of_false (by simp) ?_
      rintro ⟨w, hw, -⟩
      have hread := ofText?_eq_some_iff.mpr ⟨w, hw, rfl⟩
      rw [hs] at hread
      cases hread
  | some n =>
      obtain ⟨w, hw, rfl⟩ := ofText?_eq_some_iff.mp hs
      show _ = true ↔ _
      rw [hbound]
      constructor
      · intro h
        exact ⟨w, hw, h⟩
      · rintro ⟨w', hw', h⟩
        have hread := ofText?_eq_some_iff.mpr ⟨w', hw', rfl⟩
        rw [hs, Option.some.injEq] at hread
        rwa [hread]

end SeriesQuery.Numeral
