/-
What readers take.

A reader takes characters off the front of a text.  `Takes` says which characters it takes, and
`TakesSome` that it takes at least one.  `Local` says in addition that it looks no further: before
a text that starts with no such character it does what it does at the end of the text.  All three
are passed on from the parts of a reader to the whole, so for the readers of numbers and of keywords
they hold by the way these are put together.
-/
import SeriesQuery.Proofs.Text.Delimited
import SeriesQuery.Text.Reader

namespace SeriesQuery.Text.Reader

variable {α β : Type}

/-! ### What readers read -/

theorem get_apply (s : List Char) : (get : Reader (List Char)) s = some (s, s) :=
  rfl

theorem set_apply (s rest : List Char) : (set rest : Reader PUnit) s = some (⟨⟩, rest) :=
  rfl

theorem pure_apply (a : α) (s : List Char) : (pure a : Reader α) s = some (a, s) :=
  rfl

theorem bind_of_eq_some {r : Reader α} {f : α → Reader β} {s rest : List Char} {a : α}
    (h : r s = some (a, rest)) : (r >>= f) s = f a rest := by
  rw [bind_apply, h, Option.bind_some]

theorem bind_of_eq_none {r : Reader α} {f : α → Reader β} {s : List Char} (h : r s = none) :
    (r >>= f) s = none := by
  rw [bind_apply, h, Option.bind_none]

theorem bind_eq_some_iff {r : Reader α} {f : α → Reader β} {s rest : List Char} {b : β} :
    (r >>= f) s = some (b, rest) ↔ ∃ a left, r s = some (a, left) ∧ f a left = some (b, rest) := by
  rw [bind_apply, Option.bind_eq_some_iff]
  simp only [Prod.exists]

theorem orElse_apply (r r' : Reader α) (s : List Char) :
    (r <|> r') s = match r s with
      | some x => some x
      | none => r' s := by
  show (r s <|> r' s) = _
  cases r s <;> rfl

theorem orElse_of_eq_none {r r' : Reader α} {s : List Char} (h : r s = none) :
    (r <|> r') s = r' s := by
  rw [orElse_apply, h]

theorem orElse_of_eq_some {r r' : Reader α} {s : List Char} {x : α × List Char}
    (h : r s = some x) : (r <|> r') s = some x := by
  rw [orElse_apply, h]

theorem map_apply (f : α → β) (r : Reader α) (s : List Char) :
    (f <$> r) s = (r s).map fun (a, rest) => (f a, rest) := by
  cases h : r s with
  | none => exact congrArg (Option.bind · _) h
  | some x => exact congrArg (Option.bind · _) h

theorem optional_apply (r : Reader α) (s : List Char) :
    optional r s = match r s with
      | some (a, rest) => some (some a, rest)
      | none => some (none, s) := by
  unfold optional
  rw [orElse_apply, map_apply]
  cases r s <;> rfl

theorem optional_of_eq_none {r : Reader α} {s : List Char} (h : r s = none) :
    optional r s = some (none, s) := by
  rw [optional_apply, h]

theorem separated_of_eq_none {item : Reader α} {separator : Reader β} {s : List Char}
    (h : item s = none) : separated item separator s = some ([], s) :=
  bind_of_eq_some (optional_of_eq_none h)

/-- Where no separator follows the first item, it is the only one. -/
theorem separated_of_single {item : Reader α} {separator : Reader β} {s left : List Char} {a : α}
    (h : item s = some (a, left)) (hseparator : separator left = none) :
    separated item separator s = some ([a], left) := by
  unfold separated
  rw [bind_of_eq_some (a := some a) (by rw [optional_apply, h])]
  refine (bind_of_eq_some (repeated_of_eq_none ?_)).trans rfl
  exact bind_of_eq_none hseparator

theorem span_append {p : Char → Bool} {s rest : List Char} (hs : ∀ c ∈ s, p c = true)
    (hrest : EndsRun p rest) : span p (s ++ rest) = some (s, rest) := by
  unfold span
  rw [hrest.takeWhile_append hs, hrest.dropWhile_append hs]

theorem exists_span {p : Char → Bool} {s taken rest : List Char}
    (h : span p s = some (taken, rest)) : (∀ c ∈ taken, p c = true) ∧ s = taken ++ rest := by
  cases h
  exact ⟨List.all_eq_true.mp List.all_takeWhile, List.takeWhile_append_dropWhile.symm⟩

theorem span1_eq_some_iff {p : Char → Bool} {s taken rest : List Char} :
    span1 p s = some (taken, rest) ↔ span p s = some (taken, rest) ∧ taken ≠ [] := by
  rw [span1_apply]
  unfold span
  constructor
  · intro h
    split at h
    · cases h
    · rename_i hne
      cases h
      exact ⟨rfl, fun hnil => hne (List.isEmpty_iff.mpr hnil)⟩
  · rintro ⟨h, hne⟩
    cases h
    exact if_neg (mt List.isEmpty_iff.mp hne)

theorem satisfying_eq_some_iff {p : Char → Bool} {c : Char} {s rest : List Char} :
    satisfying p s = some (c, rest) ↔ s = c :: rest ∧ p c = true := by
  cases s with
  | nil => simp [satisfying]
  | cons d s =>
      by_cases hd : p d = true <;> simp [satisfying, hd] <;> grind

theorem char_cons (c : Char) (rest : List Char) : char c (c :: rest) = some ((), rest) :=
  if_pos rfl

theorem char_eq_some_iff {c : Char} {s rest : List Char} {x : Unit} :
    char c s = some (x, rest) ↔ s = c :: rest := by
  cases s with
  | nil => simp [char]
  | cons d s =>
      by_cases hd : d = c <;> simp [char, hd]

/-! ### Readers that take certain characters -/

/-- What the reader takes off the front of a text is made of characters that `P` accepts. -/
def Takes (P : Char → Prop) (r : Reader α) : Prop :=
  ∀ ⦃s : List Char⦄ ⦃a : α⦄ ⦃rest : List Char⦄, r s = some (a, rest) →
    ∃ taken, s = taken ++ rest ∧ ∀ c ∈ taken, P c

namespace Takes

variable {P : Char → Prop} {r : Reader α} {f : α → Reader β}

theorem pure (a : α) : Takes P (Pure.pure a : Reader α) := by
  intro s b rest h
  cases h
  exact ⟨[], rfl, by simp⟩

theorem failure : Takes P (Alternative.failure : Reader α) := by
  intro s a rest h
  cases h

theorem bind (hr : Takes P r) (hf : ∀ a, Takes P (f a)) : Takes P (r >>= f) := by
  intro s b rest h
  rw [bind_apply] at h
  obtain ⟨⟨a, between⟩, ha, hb⟩ := Option.bind_eq_some_iff.mp h
  obtain ⟨first, rfl, hfirst⟩ := hr ha
  obtain ⟨second, rfl, hsecond⟩ := hf a hb
  refine ⟨first ++ second, (List.append_assoc _ _ _).symm, ?_⟩
  intro c hc
  rcases List.mem_append.mp hc with hc | hc
  · exact hfirst c hc
  · exact hsecond c hc

theorem orElse {r' : Reader α} (hr : Takes P r) (hr' : Takes P r') : Takes P (r <|> r') := by
  intro s a rest h
  rw [orElse_apply] at h
  cases hs : r s with
  | none =>
      rw [hs] at h
      exact hr' h
  | some x =>
      rw [hs] at h
      cases h
      exact hr hs

theorem span {p : Char → Bool} (hp : ∀ c, p c = true → P c) : Takes P (span p) := by
  intro s a rest h
  cases h
  refine ⟨s.takeWhile p, List.takeWhile_append_dropWhile.symm, ?_⟩
  intro c hc
  exact hp c (List.all_eq_true.mp List.all_takeWhile c hc)

theorem span1 {p : Char → Bool} (hp : ∀ c, p c = true → P c) : Takes P (span1 p) := by
  unfold Reader.span1
  refine (span hp).bind fun cs => ?_
  split
  · exact failure
  · exact pure cs

/-- One character in front of what another reader takes. -/
theorem behind {c : Char} {s : List Char} {a : α} {rest : List Char} (hr : Takes P r)
    (hc : P c) (h : r s = some (a, rest)) :
    ∃ taken, c :: s = taken ++ rest ∧ ∀ d ∈ taken, P d := by
  obtain ⟨taken, rfl, htaken⟩ := hr h
  refine ⟨c :: taken, rfl, ?_⟩
  intro d hd
  rcases List.mem_cons.mp hd with rfl | hd
  · exact hc
  · exact htaken d hd

theorem of_whole {s : List Char} {a : α} (hr : Takes P r) (h : whole r s = some a) :
    ∀ c ∈ s, P c := by
  obtain ⟨taken, rfl, htaken⟩ := hr (whole_eq_some_iff.mp h)
  rwa [List.append_nil]

end Takes

/-! ### Readers that take something -/

/-- A reader that takes at least one character. -/
def TakesSome (r : Reader α) : Prop :=
  ∀ ⦃s : List Char⦄ ⦃a : α⦄ ⦃rest : List Char⦄, r s = some (a, rest) → rest.length < s.length

theorem length_le_of_takes {P : Char → Prop} {r : Reader α} {s rest : List Char} {a : α}
    (hr : Takes P r) (h : r s = some (a, rest)) : rest.length ≤ s.length := by
  obtain ⟨taken, rfl, -⟩ := hr h
  rw [List.length_append]
  exact Nat.le_add_left _ _

namespace TakesSome

variable {P : Char → Prop} {r r' : Reader α} {f : α → Reader β}

theorem bind (hr : TakesSome r) (hf : ∀ a, Takes P (f a)) : TakesSome (r >>= f) := by
  intro s b rest h
  rw [bind_apply] at h
  obtain ⟨⟨a, between⟩, ha, hb⟩ := Option.bind_eq_some_iff.mp h
  exact Nat.lt_of_le_of_lt (length_le_of_takes (hf a) hb) (hr ha)

theorem behind (hr : Takes P r) (hf : ∀ a, TakesSome (f a)) : TakesSome (r >>= f) := by
  intro s b rest h
  rw [bind_apply] at h
  obtain ⟨⟨a, between⟩, ha, hb⟩ := Option.bind_eq_some_iff.mp h
  exact Nat.lt_of_lt_of_le (hf a hb) (length_le_of_takes hr ha)

theorem orElse (hr : TakesSome r) (hr' : TakesSome r') : TakesSome (r <|> r') := by
  intro s a rest h
  rw [orElse_apply] at h
  cases hs : r s with
  | none =>
      rw [hs] at h
      exact hr' h
  | some x =>
      rw [hs] at h
      cases h
      exact hr hs

theorem char (c : Char) : TakesSome (Reader.char c) := by
  intro s a rest h
  cases char_eq_some_iff.mp h
  exact Nat.lt_succ_self _

theorem span1 (p : Char → Bool) : TakesSome (Reader.span1 p) := by
  intro s a rest h
  rw [span1_apply] at h
  split at h
  · cases h
  · rename_i hne
    cases h
    have hlength := congrArg List.length (List.takeWhile_append_dropWhile (p := p) (l := s))
    have hpos : 0 < (s.takeWhile p).length :=
      List.length_pos_iff.mpr fun hnil => hne (List.isEmpty_iff.mpr hnil)
    rw [List.length_append] at hlength
    omega

end TakesSome

/-! ### Readers that look no further -/

/-- The reader takes characters that `p` accepts, and what follows the last of them does not
    matter as long as it starts with no such character. -/
structure Local (p : Char → Bool) (r : Reader α) : Prop where
  takes : Takes (p · = true) r
  append : ∀ {s rest : List Char}, (∀ c ∈ s, p c = true) → EndsRun p rest →
    r (s ++ rest) = (r s).map fun (a, left) => (a, left ++ rest)

namespace Local

variable {p q : Char → Bool} {r r' : Reader α} {f : α → Reader β}

theorem pure (a : α) : Local p (Pure.pure a : Reader α) where
  takes := Takes.pure a
  append := fun _ _ => rfl

theorem failure : Local p (Alternative.failure : Reader α) where
  takes := Takes.failure
  append := fun _ _ => rfl

theorem bind (hr : Local p r) (hf : ∀ a, Local p (f a)) : Local p (r >>= f) where
  takes := hr.takes.bind fun a => (hf a).takes
  append := by
    intro s rest hs hrest
    rw [bind_apply, bind_apply, hr.append hs hrest]
    cases h : r s with
    | none => rfl
    | some x =>
        obtain ⟨a, left⟩ := x
        obtain ⟨taken, rfl, -⟩ := hr.takes h
        exact (hf a).append (fun c hc => hs c (List.mem_append_right _ hc)) hrest

theorem orElse (hr : Local p r) (hr' : Local p r') : Local p (r <|> r') where
  takes := hr.takes.orElse hr'.takes
  append := by
    intro s rest hs hrest
    rw [orElse_apply, orElse_apply, hr.append hs hrest]
    cases r s with
    | none => exact hr'.append hs hrest
    | some x => rfl

theorem map (g : α → β) (hr : Local p r) : Local p (g <$> r) := by
  rw [map_eq_pure_bind]
  exact hr.bind fun a => pure (g a)

theorem optional (hr : Local p r) : Local p (optional r) :=
  (hr.map some).orElse (pure none)

theorem satisfying (hq : ∀ c, q c = true → p c = true) : Local p (satisfying q) where
  takes := by
    intro s a rest h
    cases s with
    | nil => cases h
    | cons c s =>
        by_cases hc : q c = true
        · rw [Reader.satisfying, if_pos hc] at h
          cases h
          refine ⟨[a], rfl, ?_⟩
          intro d hd
          rw [List.mem_singleton.mp hd]
          exact hq a hc
        · rw [Reader.satisfying, if_neg hc] at h
          cases h
  append := by
    intro s rest hs hrest
    cases s with
    | cons c s =>
        by_cases hc : q c = true <;> simp [Reader.satisfying, hc]
    | nil =>
        cases rest with
        | nil => rfl
        | cons c rest =>
            have hc : q c = false := hrest.mono hq c rest rfl
            simp [Reader.satisfying, hc]

theorem char {c : Char} (hc : p c = true) : Local p (char c) := by
  have hchar : Reader.char c = (fun _ => ()) <$> Reader.satisfying (· == c) := by
    funext s
    rw [map_apply]
    cases s with
    | nil => rfl
    | cons d s => by_cases hd : d = c <;> simp [Reader.char, Reader.satisfying, hd]
  rw [hchar]
  refine (satisfying ?_).map _
  intro d hd
  rwa [beq_iff_eq.mp hd]

theorem word {w : List Char} (hw : w.all p = true) : Local p (word w) := by
  induction w with
  | nil => exact pure ()
  | cons c w ih =>
      rw [List.all_cons, Bool.and_eq_true] at hw
      exact (char hw.1).bind fun _ => ih hw.2

theorem span (hq : ∀ c, q c = true → p c = true) : Local p (span q) where
  takes := Takes.span hq
  append := by
    intro s rest hs hrest
    induction s with
    | nil =>
        cases rest with
        | nil => rfl
        | cons c rest =>
            have hc : q c = false := hrest.mono hq c rest rfl
            simp [Reader.span, hc]
    | cons c s ih =>
        have ih := ih fun d hd => hs d (List.mem_cons_of_mem c hd)
        by_cases hc : q c = true <;> simp_all [Reader.span]

theorem span1 (hq : ∀ c, q c = true → p c = true) : Local p (span1 q) := by
  unfold Reader.span1
  refine (span hq).bind fun cs => ?_
  split
  · exact failure
  · exact pure cs

end Local

end SeriesQuery.Text.Reader
