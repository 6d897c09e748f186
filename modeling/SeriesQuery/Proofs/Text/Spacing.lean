/-
Spacing.

A text is tidy when no space stands at either end of it and no two stand side by side; solid,
when there is something to it besides.  Two texts with one space between them are solid exactly
when both are: an empty one would leave the space at an end or beside another, and a space at
the wrong end of either would stand beside it.  So a row of texts with one space between each
two is solid exactly when each of them is.
-/
import Mathlib.Data.List.Chain

namespace SeriesQuery.Text

/-- No space at either end, and none beside another. -/
def IsTidy (s : List Char) : Prop :=
  s.head? ≠ some ' ' ∧ s.getLast? ≠ some ' ' ∧ s.IsChain fun a b => a ≠ ' ' ∨ b ≠ ' '

instance : DecidablePred IsTidy :=
  fun _ => inferInstanceAs (Decidable (_ ∧ _ ∧ _))

/-- Tidy, and not empty. -/
def IsSolid (s : List Char) : Prop :=
  s ≠ [] ∧ IsTidy s

instance : DecidablePred IsSolid :=
  fun _ => inferInstanceAs (Decidable (_ ∧ _))

variable {a b : List Char}

theorem isTidy_nil : IsTidy [] := by
  decide

theorem isTidy_of_not_mem (h : ' ' ∉ a) : IsTidy a := by
  refine ⟨fun hhead => h (List.mem_of_head? hhead), fun hlast => h (List.mem_of_getLast? hlast),
    ?_⟩
  induction a with
  | nil => exact List.IsChain.nil
  | cons c a ih =>
      rw [List.mem_cons, not_or] at h
      exact List.isChain_cons.mpr ⟨fun _ _ => Or.inl (Ne.symm h.1), ih h.2⟩

/-- Tidy texts directly side by side stay tidy. -/
theorem IsTidy.append (ha : IsTidy a) (hb : IsTidy b) : IsTidy (a ++ b) := by
  obtain ⟨hahead, halast, hachain⟩ := ha
  obtain ⟨hbhead, hblast, hbchain⟩ := hb
  refine ⟨?_, ?_, List.isChain_append.mpr ⟨hachain, hbchain, ?_⟩⟩
  · cases a with
    | nil => exact hbhead
    | cons c a => exact hahead
  · cases b with
    | nil => rwa [List.append_nil]
    | cons c b => rwa [List.getLast?_append_cons]
  · intro x hx _ _
    refine Or.inl ?_
    rintro rfl
    exact halast hx

/-- With one space between them two texts are solid when both are, and only then. -/
theorem isSolid_space_iff : IsSolid (a ++ ' ' :: b) ↔ IsSolid a ∧ IsSolid b := by
  constructor
  · rintro ⟨-, hhead, hlast, hchain⟩
    obtain ⟨hachain, hsbchain, hjoin⟩ := List.isChain_append.mp hchain
    obtain ⟨hspace, hbchain⟩ := List.isChain_cons.mp hsbchain
    have ha : a ≠ [] := by
      rintro rfl
      exact hhead rfl
    have hb : b ≠ [] := by
      rintro rfl
      exact hlast (by simp)
    refine ⟨⟨ha, ?_, ?_, hachain⟩, hb, ?_, ?_, hbchain⟩
    · intro h
      apply hhead
      rwa [List.head?_append_of_ne_nil _ ha]
    · intro h
      rcases hjoin ' ' h ' ' rfl with hne | hne <;> exact hne rfl
    · intro h
      rcases hspace ' ' h with hne | hne <;> exact hne rfl
    · intro h
      apply hlast
      rw [List.getLast?_append_of_ne_nil _ (List.cons_ne_nil _ _), List.getLast?_cons, h]
      rfl
  · rintro ⟨⟨ha, hahead, halast, hachain⟩, hb, hbhead, hblast, hbchain⟩
    refine ⟨by simp, ?_, ?_, List.isChain_append.mpr ⟨hachain, List.isChain_cons.mpr
      ⟨?_, hbchain⟩, ?_⟩⟩
    · rwa [List.head?_append_of_ne_nil _ ha]
    · obtain ⟨c, b, rfl⟩ := List.exists_cons_of_ne_nil hb
      rwa [List.getLast?_append_of_ne_nil _ (List.cons_ne_nil _ _), List.getLast?_cons_cons]
    · rintro x hx
      refine Or.inr ?_
      rintro rfl
      exact hbhead hx
    · intro x hx _ _
      refine Or.inl ?_
      rintro rfl
      exact halast hx

/-! ### Rows of texts -/

theorem isSolid_iff_of_isTidy {t : String} (h : IsTidy t.toList) : IsSolid t.toList ↔ t ≠ "" := by
  unfold IsSolid
  rw [Ne, String.toList_eq_nil_iff]
  exact and_iff_left h

/-- Behind a solid text and a space a text is solid when it is solid itself. -/
theorem isSolid_behind_iff {keyword : String} (hk : IsSolid keyword.toList) (t : String) :
    IsSolid (keyword ++ " " ++ t).toList ↔ IsSolid t.toList := by
  have hsplit : (keyword ++ " " ++ t).toList = keyword.toList ++ ' ' :: t.toList := by
    simp
  rw [hsplit, isSolid_space_iff]
  exact and_iff_right hk

/-- Texts with a space between each two. -/
theorem isSolid_spaced_iff (first : String) (rest : List String) :
    IsSolid (" ".intercalate (first :: rest)).toList ↔
      ∀ t ∈ first :: rest, IsSolid t.toList := by
  induction rest generalizing first with
  | nil => simp
  | cons second rest ih =>
      have hsplit : (" ".intercalate (first :: second :: rest)).toList =
          first.toList ++ ' ' :: (" ".intercalate (second :: rest)).toList := by
        rw [String.intercalate_cons_cons]
        simp
      rw [hsplit, isSolid_space_iff, ih]
      simp only [List.mem_cons, forall_eq_or_imp]

/-- Tidy texts with a comma and a space between each two: a comma makes any of them solid, so only
    the last can leave a space at an end. -/
theorem isSolid_listed_iff {first : String} {rest : List String}
    (h : ∀ t ∈ first :: rest, IsTidy t.toList) :
    IsSolid (", ".intercalate (first :: rest)).toList ↔
      (first :: rest).getLast? ≠ some "" := by
  induction rest generalizing first with
  | nil =>
      rw [String.intercalate_singleton, isSolid_iff_of_isTidy (h first List.mem_cons_self)]
      simp
  | cons second rest ih =>
      have hsplit : (", ".intercalate (first :: second :: rest)).toList =
          (first.toList ++ [',']) ++ ' ' :: (", ".intercalate (second :: rest)).toList := by
        rw [String.intercalate_cons_cons]
        simp
      have hfirst : IsSolid (first.toList ++ [',']) :=
        ⟨by simp, (h first List.mem_cons_self).append (isTidy_of_not_mem (by decide))⟩
      rw [hsplit, isSolid_space_iff, and_iff_right hfirst,
        ih fun t ht => h t (List.mem_cons_of_mem _ ht), List.getLast?_cons_cons]

end SeriesQuery.Text
