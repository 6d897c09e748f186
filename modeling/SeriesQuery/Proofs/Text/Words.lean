/-
The words of a text are its maximal runs.

Cutting at every blank leaves an empty piece wherever two blanks meet, and at a blank end of the
text.  Those pieces are dropped, so what is left is exactly the runs of characters that are not
blank, each as long as it can be: in front of it there are only blanks, and behind it the text ends
or goes on with a blank.  `Runs` says so without cutting anything.
-/
import SeriesQuery.Proofs.Text.Blank
import SeriesQuery.Proofs.Text.Delimited

namespace SeriesQuery.Text

/-- A word has a character, and none that is a blank. -/
def IsWord (w : List Char) : Prop :=
  w ≠ [] ∧ ∀ c ∈ w, isBlank c = false

/-- The words are the maximal runs of the text, in order. -/
inductive Runs : List Char → List (List Char) → Prop
  | blanks {s : List Char} (hs : ∀ c ∈ s, isBlank c = true) : Runs s []
  | word {before w s : List Char} {ws : List (List Char)}
      (hbefore : ∀ c ∈ before, isBlank c = true) (hw : IsWord w)
      (hend : EndsRun (fun c => !isBlank c) s) (hs : Runs s ws) :
      Runs (before ++ w ++ s) (w :: ws)

/-! ### Cutting -/

/-- A blank parts the words before it from those behind it. -/
theorem words_append_blank {b : Char} (hb : isBlank b = true) (s t : List Char) :
    words (s ++ b :: t) = words s ++ words t := by
  unfold words
  rw [List.splitOnP_append_cons s t hb, List.filter_append]

theorem words_blanks_append {before : List Char} (hbefore : ∀ c ∈ before, isBlank c = true)
    (s : List Char) : words (before ++ s) = words s := by
  induction before with
  | nil => rfl
  | cons b before ih =>
      obtain ⟨hb, hbefore⟩ := List.forall_mem_cons.mp hbefore
      have hfirst := words_append_blank hb [] (before ++ s)
      rw [words_nil, List.nil_append, List.nil_append] at hfirst
      rw [List.cons_append, hfirst, ih hbefore]

theorem words_of_isWord {w : List Char} (hw : IsWord w) : words w = [w] := by
  obtain ⟨hne, hsolid⟩ := hw
  unfold words
  rw [List.splitOnP_eq_singleton hsolid, List.filter_cons_of_pos (by simpa using hne),
    List.filter_nil]

/-- A word that ends where a blank or nothing follows is the first. -/
theorem words_word_append {w s : List Char} (hw : IsWord w)
    (hend : EndsRun (fun c => !isBlank c) s) : words (w ++ s) = w :: words s := by
  cases s with
  | nil => rw [List.append_nil, words_of_isWord hw, words_nil]
  | cons b s =>
      have hb : isBlank b = true := by simpa using hend b s rfl
      have hrest := words_append_blank hb [] s
      rw [words_nil, List.nil_append, List.nil_append] at hrest
      rw [words_append_blank hb, words_of_isWord hw, hrest, List.singleton_append]

/-! ### Runs -/

theorem Runs.words_eq {s : List Char} {ws : List (List Char)} (h : Runs s ws) :
    words s = ws := by
  induction h with
  | @blanks s hs =>
      have hall := words_blanks_append hs []
      rwa [List.append_nil, words_nil] at hall
  | word hbefore hw hend _ ih =>
      rw [List.append_assoc, words_blanks_append hbefore, words_word_append hw hend, ih]

/-- A run goes on until something ends it. -/
theorem endsRun_dropWhile (p : Char → Bool) (s : List Char) : EndsRun p (s.dropWhile p) := by
  intro c x hx
  have hhead := List.head?_dropWhile_not p s
  rw [hx] at hhead
  exact hhead

/-- Every text has its runs: the blanks at its start, a word, and then what is left. -/
theorem exists_runs (s : List Char) : ∃ ws, Runs s ws := by
  induction hlength : s.length using Nat.strongRecOn generalizing s with
  | _ length ih =>
      have hbefore : ∀ c ∈ s.takeWhile isBlank, isBlank c = true :=
        List.all_eq_true.mp List.all_takeWhile
      have hsplit := List.takeWhile_append_dropWhile (p := isBlank) (l := s)
      cases hrest : s.dropWhile isBlank with
      | nil =>
          rw [hrest, List.append_nil] at hsplit
          exact ⟨[], .blanks (hsplit ▸ hbefore)⟩
      | cons c r =>
          have hc : isBlank c = false := endsRun_dropWhile isBlank s c r hrest
          let solid : Char → Bool := fun c => !isBlank c
          have hw : IsWord ((c :: r).takeWhile solid) := by
            refine ⟨?_, fun d hd => ?_⟩
            · rw [List.takeWhile_cons_of_pos (by simpa [solid] using hc)]
              exact List.cons_ne_nil _ _
            · simpa [solid] using List.all_eq_true.mp List.all_takeWhile d hd
          have hshorter : ((c :: r).dropWhile solid).length < length := by
            have hdrop : (c :: r).dropWhile solid = r.dropWhile solid :=
              List.dropWhile_cons_of_pos (by simpa [solid] using hc)
            have hle : (r.dropWhile solid).length ≤ r.length :=
              (List.dropWhile_suffix solid).length_le
            have hle' : (s.dropWhile isBlank).length ≤ s.length :=
              (List.dropWhile_suffix isBlank).length_le
            rw [hrest, List.length_cons] at hle'
            rw [hdrop]
            omega
          obtain ⟨ws, hws⟩ := ih _ hshorter _ rfl
          have h := Runs.word hbefore hw (endsRun_dropWhile solid (c :: r)) hws
          rw [List.append_assoc, List.takeWhile_append_dropWhile, ← hrest, hsplit] at h
          exact ⟨_, h⟩

/-- **The words of a text are its maximal runs, and nothing else is.** -/
theorem words_eq_iff_runs {s : List Char} {ws : List (List Char)} : words s = ws ↔ Runs s ws := by
  refine ⟨?_, Runs.words_eq⟩
  rintro rfl
  obtain ⟨ws, h⟩ := exists_runs s
  rwa [← h.words_eq] at h

/-- Every character that is not blank is in a word. -/
theorem Runs.exists_mem {s : List Char} {ws : List (List Char)} (h : Runs s ws) {c : Char}
    (hmem : c ∈ s) (hc : isBlank c = false) : ∃ w ∈ ws, c ∈ w := by
  induction h with
  | blanks hs =>
      rw [hs c hmem] at hc
      cases hc
  | @word before w s ws hbefore hw hend _ ih =>
      rcases List.mem_append.mp hmem with hmem | hmem
      · rcases List.mem_append.mp hmem with hblank | hword
        · rw [hbefore c hblank] at hc
          cases hc
        · exact ⟨w, List.mem_cons_self, hword⟩
      · obtain ⟨w', hw', hmem'⟩ := ih hmem
        exact ⟨w', List.mem_cons_of_mem w hw', hmem'⟩

end SeriesQuery.Text
