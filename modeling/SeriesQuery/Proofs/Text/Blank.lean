/-
Trimming and cutting at blanks.

Blanks that are put around a text without blanks are exactly what trimming takes away again,
and cutting a text into words loses nothing but blanks: each word is made of characters of
the text, and none of them is a blank.  No digit is a blank.
-/
import SeriesQuery.Text.Blank

namespace SeriesQuery.Text

/-! ### Digits and letters -/

theorem toNat_of_isDigit {c : Char} (h : c.isDigit = true) : 48 ≤ c.toNat ∧ c.toNat ≤ 57 := by
  simpa [Char.isDigit, UInt32.le_iff_toNat_le] using h

theorem toNat_of_isUpper {c : Char} (h : c.isUpper = true) : 65 ≤ c.toNat ∧ c.toNat ≤ 90 := by
  have hrange : 'A'.val ≤ c.val ∧ c.val ≤ 'Z'.val := of_decide_eq_true h
  exact hrange.imp UInt32.le_iff_toNat_le.mp UInt32.le_iff_toNat_le.mp

theorem toNat_of_isLower {c : Char} (h : c.isLower = true) : 97 ≤ c.toNat ∧ c.toNat ≤ 122 := by
  have hrange := (Bool.and_eq_true_iff.mp h).imp of_decide_eq_true of_decide_eq_true
  exact hrange.imp UInt32.le_iff_toNat_le.mp UInt32.le_iff_toNat_le.mp

theorem isBlank_of_isDigit {c : Char} (h : c.isDigit = true) : isBlank c = false := by
  have hrange := toNat_of_isDigit h
  unfold isBlank
  simp only [Bool.or_eq_false_iff, Bool.and_eq_false_imp, decide_eq_true_eq,
    decide_eq_false_iff_not, beq_eq_false_iff_ne]
  omega

/-! ### Trimming -/

theorem trimStart_append {before : List Char} (s : List Char)
    (hb : ∀ c ∈ before, isBlank c = true) : trimStart (before ++ s) = trimStart s :=
  List.dropWhile_append_of_pos hb

theorem trimEnd_append (s : List Char) {after : List Char}
    (ha : ∀ c ∈ after, isBlank c = true) : trimEnd (s ++ after) = trimEnd s := by
  have hrev : ∀ c ∈ after.reverse, isBlank c = true := by
    intro c hc
    exact ha c (List.mem_reverse.mp hc)
  unfold trimEnd
  rw [List.reverse_append, List.dropWhile_append_of_pos hrev]

/-- A text without blanks comes out of the blanks around it unchanged. -/
theorem trim_surrounded {before s after : List Char} (hb : ∀ c ∈ before, isBlank c = true)
    (hs : ∀ c ∈ s, isBlank c = false) (ha : ∀ c ∈ after, isBlank c = true) :
    trim (before ++ s ++ after) = s := by
  have hid : ∀ t : List Char, (∀ c ∈ t, isBlank c = false) → t.dropWhile isBlank = t := by
    intro t ht
    cases t with
    | nil => rfl
    | cons c r => rw [List.dropWhile_cons_of_neg (by simp [ht c])]
  unfold trim
  rw [List.append_assoc, trimStart_append _ hb]
  cases s with
  | nil =>
      rw [List.nil_append, ← List.append_nil after, trimStart_append [] ha]
      rfl
  | cons c r =>
      have hstart : trimStart (c :: r ++ after) = c :: r ++ after := by
        unfold trimStart
        rw [List.cons_append, List.dropWhile_cons_of_neg (by simp [hs c])]
      rw [hstart, trimEnd_append _ ha]
      unfold trimEnd
      rw [hid _ (fun d hd => hs d (List.mem_reverse.mp hd)), List.reverse_reverse]

theorem trim_of_not_blank {s : List Char} (h : ∀ c ∈ s, isBlank c = false) : trim s = s := by
  have hnone : ∀ c ∈ ([] : List Char), isBlank c = true := by simp
  have htrim := trim_surrounded hnone h hnone
  rwa [List.nil_append, List.append_nil] at htrim

/-! ### Words -/

/-- A piece between separators is made of characters of the text that do not separate. -/
theorem mem_of_mem_splitOnP {p : Char → Bool} :
    ∀ {s w : List Char} {c : Char}, w ∈ s.splitOnP p → c ∈ w → c ∈ s ∧ p c = false := by
  intro s
  induction s with
  | nil =>
      intro w c hw hc
      rw [List.splitOnP_nil, List.mem_singleton] at hw
      subst hw
      cases hc
  | cons d s ih =>
      intro w c hw hc
      rw [List.splitOnP_cons_eq_if_modifyHead] at hw
      by_cases hd : p d
      · rw [if_pos hd, List.mem_cons] at hw
        rcases hw with rfl | hw
        · cases hc
        · exact ⟨List.mem_cons_of_mem _ (ih hw hc).1, (ih hw hc).2⟩
      · rw [if_neg hd] at hw
        -- Only the first piece grows, and only by `d`.
        cases hpieces : s.splitOnP p with
        | nil => exact absurd hpieces (List.splitOnP_ne_nil p s)
        | cons first rest =>
            rw [hpieces, List.modifyHead_cons, List.mem_cons] at hw
            rcases hw with rfl | hw
            · rcases List.mem_cons.mp hc with rfl | hc
              · exact ⟨List.mem_cons_self, by simpa using hd⟩
              · have := ih (w := first) (by rw [hpieces]; exact List.mem_cons_self) hc
                exact ⟨List.mem_cons_of_mem _ this.1, this.2⟩
            · have := ih (w := w) (by rw [hpieces]; exact List.mem_cons_of_mem _ hw) hc
              exact ⟨List.mem_cons_of_mem _ this.1, this.2⟩

/-- A word is made of characters of the text, none of them a blank. -/
theorem mem_of_mem_words {s w : List Char} {c : Char} (hw : w ∈ words s) (hc : c ∈ w) :
    c ∈ s ∧ isBlank c = false :=
  mem_of_mem_splitOnP (List.mem_filter.mp hw).1 hc

end SeriesQuery.Text
