/-
Literals show where they end.

A literal is either between single quotes, with no single quote inside, or it is bare, and then
it has no space in it.  Numbers, durations and timestamps are so whatever they are; a text is
written as it stands, so only a text without single quotes is.
-/
import SeriesQuery.Proofs.Duration.Canonical
import SeriesQuery.Proofs.Text.Delimited
import SeriesQuery.Proofs.Time.Parts
import SeriesQuery.Value

namespace SeriesQuery

open Text

/-! ### Numbers -/

theorem isDigit_of_mem_toString {n : Nat} {c : Char} (h : c ∈ (toString n).toList) :
    c.isDigit = true := by
  rw [Nat.toString_eq_repr, Nat.toList_repr] at h
  exact Nat.isDigit_of_mem_toDigits (by decide) (by decide) h

theorem not_mem_toString {c : Char} (hc : c.isDigit = false) (n : Nat) :
    c ∉ (toString n).toList := by
  intro h
  rw [isDigit_of_mem_toString h] at hc
  cases hc

theorem not_mem_toString_int {c : Char} (hc : c.isDigit = false) (hminus : c ≠ '-') (n : Int) :
    c ∉ (toString n).toList := by
  cases n with
  | ofNat n => exact not_mem_toString hc n
  | negSucc n =>
      show c ∉ ("-" ++ toString (n + 1)).toList
      rw [String.toList_append, List.mem_append, not_or]
      exact ⟨by simpa using hminus, not_mem_toString hc (n + 1)⟩

theorem not_mem_padded {c : Char} (hc : c.isDigit = false) (places n : Nat) :
    c ∉ (padded places n).toList := by
  intro h
  rw [isDigit_of_mem_padded c h] at hc
  cases hc

theorem toString_inj {m n : Nat} : toString m = toString n ↔ m = n := by
  refine ⟨fun h => ?_, congrArg toString⟩
  have hsame := congrArg String.toList h
  simp only [Nat.toString_eq_repr, Nat.toList_repr] at hsame
  rw [← Nat.ofDigitChars_ten_toDigits (n := m), hsame, Nat.ofDigitChars_ten_toDigits]

/-- Digits end where no digit follows. -/
theorem selfDelimiting_number :
    SelfDelimiting (fun n : Nat => (toString n).toList) (EndsRun Char.isDigit) := by
  refine SelfDelimiting.word (w := fun n : Nat => toString n) ?_ ?_
  · intro n
    exact List.all_eq_true.mpr fun c hc => isDigit_of_mem_toString hc
  · intro m n
    exact toString_inj.mp

theorem exists_first_digit (n : Nat) :
    ∃ c cs, (toString n).toList = c :: cs ∧ c.isDigit = true := by
  cases hdigits : (toString n).toList with
  | nil =>
      rw [Nat.toString_eq_repr, Nat.toList_repr] at hdigits
      exact absurd hdigits Nat.toDigits_ne_nil
  | cons c cs => exact ⟨c, cs, rfl, isDigit_of_mem_toString (hdigits ▸ List.mem_cons_self)⟩

theorem toList_negSucc (n : Nat) :
    (toString (Int.negSucc n)).toList = '-' :: (toString (n + 1)).toList := by
  show ("-" ++ toString (n + 1)).toList = _
  rw [String.toList_append]
  rfl

/-- A minus tells the numbers below zero from the others. -/
theorem selfDelimiting_int :
    SelfDelimiting (fun n : Int => (toString n).toList) (EndsRun Char.isDigit) := by
  have hmixed : ∀ (m n : Nat) (r s : List Char),
      (toString m).toList ++ r ≠ (toString (Int.negSucc n)).toList ++ s := by
    intro m n r s heq
    obtain ⟨c, cs, hm, hc⟩ := exists_first_digit m
    rw [hm, toList_negSucc] at heq
    cases (List.cons.inj heq).1
    cases hc
  intro m n r s hr hs heq
  cases m with
  | ofNat m =>
      cases n with
      | ofNat n =>
          obtain ⟨rfl, hrs⟩ := selfDelimiting_number hr hs heq
          exact ⟨rfl, hrs⟩
      | negSucc n => exact absurd heq (hmixed m n r s)
  | negSucc m =>
      cases n with
      | ofNat n => exact absurd heq.symm (hmixed n m s r)
      | negSucc n =>
          simp only [toList_negSucc] at heq
          obtain ⟨hmn, hrs⟩ := selfDelimiting_number hr hs (List.cons.inj heq).2
          cases hmn
          exact ⟨rfl, hrs⟩

/-! ### Durations and timestamps -/

theorem Duration.not_mem_token {c : Char} (hc : c.isDigit = false)
    (hsymbol : ∀ u : TimeUnit, c ∉ u.symbol.toList) (d : Duration) : c ∉ d.token.toList := by
  obtain ⟨u, -, -, htoken⟩ := d.exists_token_eq
  rw [htoken, String.toList_append, List.mem_append, not_or]
  exact ⟨not_mem_toString hc _, hsymbol u⟩

theorem Timestamp.not_mem_text {c : Char} (hc : c.isDigit = false)
    (hmarks : c ∉ ['-', '+', ':', 'T', 'Z']) (t : Timestamp) : c ∉ t.text.toList := by
  simp only [List.mem_cons, List.not_mem_nil, or_false, not_or] at hmarks
  obtain ⟨hminus, hplus, hcolon, hT, hZ⟩ := hmarks
  have hyear : ∀ year, c ∉ (Date.yearText year).toList := by
    intro year
    unfold Date.yearText
    split
    · simp [hminus, not_mem_padded hc]
    · split
      · exact not_mem_padded hc _ _
      · simp [hplus, not_mem_padded hc]
  unfold Timestamp.text Date.text
  simp [hyear, not_mem_padded hc, hminus, hcolon, hT, hZ]

/-! ### Literals -/

/-- Between single quotes and without one inside, or without single quotes and spaces. -/
def IsLiteral (s : List Char) : Prop :=
  (∃ inner, '\'' ∉ inner ∧ s = '\'' :: (inner ++ ['\''])) ∨ ('\'' ∉ s ∧ ' ' ∉ s)

namespace Value

/-- A value that is no text with a single quote in it. -/
def IsQuoteFree : Value → Prop
  | text s | other s => '\'' ∉ s.toList
  | int _ | uint _ | duration _ | timestamp _ => True

instance : DecidablePred IsQuoteFree
  | text s | other s => inferInstanceAs (Decidable ('\'' ∉ s.toList))
  | int _ | uint _ | duration _ | timestamp _ => inferInstanceAs (Decidable True)

/-- A bare value is digits, a minus and the symbol of a unit. -/
theorem not_mem_plain_of_bare {v : Value} (hv : v.isQuoted = false) {c : Char}
    (hc : c.isDigit = false) (hminus : c ≠ '-') (hsymbol : ∀ u : TimeUnit, c ∉ u.symbol.toList) :
    c ∉ v.plain.toList := by
  cases v with
  | int n => exact not_mem_toString_int hc hminus n
  | uint n => exact not_mem_toString hc n
  | duration d => exact d.not_mem_token hc hsymbol
  | text s => cases hv
  | other s => cases hv
  | timestamp t => cases hv

theorem quote_not_mem_plain_of_quoted {v : Value} (hv : v.isQuoted = true)
    (h : v.IsQuoteFree) : '\'' ∉ v.plain.toList := by
  cases v with
  | text s => exact h
  | other s => exact h
  | timestamp t => exact t.not_mem_text (by decide) (by decide)
  | int n => cases hv
  | uint n => cases hv
  | duration d => cases hv

/-- The literal of a value can be told from what follows it. -/
theorem isLiteral_literal {v : Value} (h : v.IsQuoteFree) : IsLiteral v.literal.toList := by
  unfold literal
  cases hv : v.isQuoted with
  | true =>
      refine Or.inl ⟨v.plain.toList, quote_not_mem_plain_of_quoted hv h, ?_⟩
      simp
  | false =>
      refine Or.inr ⟨?_, ?_⟩
      · exact not_mem_plain_of_bare hv (by decide) (by decide) (by intro u; cases u <;> decide)
      · exact not_mem_plain_of_bare hv (by decide) (by decide) (by intro u; cases u <;> decide)

end Value

/-- A text between single quotes ends at the first single quote. -/
private theorem selfDelimiting_quoted :
    SelfDelimiting
      (fun inner : {s : List Char // ∀ c ∈ s, (c != '\'') = true} => inner.val ++ ['\''])
      (fun _ => True) :=
  (SelfDelimiting.run (· != '\'')).closed (endsRun_cons (by decide))

/-- Before a space or the end a literal ends where it ends. -/
theorem selfDelimiting_literal :
    SelfDelimiting (fun v : {s : List Char // IsLiteral s} => v.val) (EndsRun (· != ' ')) := by
  have hne : ∀ {s : List Char} {x : Char}, x ∉ s → ∀ c ∈ s, (c != x) = true := by
    intro s x hx c hc
    rw [bne_iff_ne]
    rintro rfl
    exact hx hc
  -- A bare literal does not begin as a quoted one does, and nor does what follows an empty one.
  have hmixed : ∀ {v r x : List Char}, '\'' ∉ v → EndsRun (· != ' ') r →
      v ++ r ≠ '\'' :: x := by
    intro v r x hv hr heq
    cases v with
    | nil => exact absurd (hr _ _ heq) (by decide)
    | cons c v =>
        cases heq
        exact hv List.mem_cons_self
  rintro ⟨a, ha⟩ ⟨b, hb⟩ r s hr hs heq
  rcases ha with ⟨inner, hinner, rfl⟩ | ⟨hquote, hspace⟩
  · rcases hb with ⟨inner', hinner', rfl⟩ | ⟨hquote', hspace'⟩
    · obtain ⟨hsame, hrs⟩ := selfDelimiting_quoted (a := ⟨inner, hne hinner⟩)
        (b := ⟨inner', hne hinner'⟩) trivial trivial (List.cons.inj heq).2
      cases hsame
      exact ⟨rfl, hrs⟩
    · exact absurd heq.symm (hmixed hquote' hs)
  · rcases hb with ⟨inner', hinner', rfl⟩ | ⟨hquote', hspace'⟩
    · exact absurd heq (hmixed hquote hr)
    · obtain ⟨hsame, hrs⟩ := SelfDelimiting.run (· != ' ') (a := ⟨a, hne hspace⟩)
        (b := ⟨b, hne hspace'⟩) hr hs heq
      cases hsame
      exact ⟨rfl, hrs⟩

end SeriesQuery
