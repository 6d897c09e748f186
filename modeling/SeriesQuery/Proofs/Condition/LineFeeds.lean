/-
Line feeds of conditions.

What is written around a text brings in no line feed: neither quotes nor the backslashes of an
identifier, and numbers, durations and timestamps are digits and marks.  Values are put in the
places of a condition without touching the text between them.  Only shorthand loses line feeds:
they are blanks, so the words that are left of its text have none.
-/
import SeriesQuery.Proofs.Condition.Shorthand
import SeriesQuery.Proofs.Literal
import SeriesQuery.Proofs.Text.LineFeeds

namespace SeriesQuery

open Text

/-! ### Names -/

theorem Identifier.count_escape {x : Char} (hx : x ≠ '\\') (s : List Char) :
    (escape s).count x = s.count x := by
  induction s with
  | nil => rfl
  | cons c s ih =>
      unfold escape
      split
      · rw [List.count_cons_of_ne hx.symm, List.count_cons, List.count_cons, ih]
      · rw [List.count_cons, List.count_cons, ih]

@[simp] theorem Identifier.lineFeeds_quote (name : String) :
    lineFeeds (quote name) = lineFeeds name := by
  have hescape : lineFeeds (String.ofList (escape name.toList)) = lineFeeds name := by
    unfold lineFeeds
    rw [String.toList_ofList, count_escape (by decide)]
  have hmark : lineFeeds "\"" = 0 := rfl
  unfold quote
  rw [lineFeeds_append, lineFeeds_append, hescape, hmark, Nat.add_zero, Nat.zero_add]

@[simp] theorem Identifier.lineFeeds_text (name : String) :
    lineFeeds (text name) = lineFeeds name := by
  unfold text
  split
  · rfl
  · exact lineFeeds_quote name

/-! ### Values -/

namespace Value

/-- The text that the value is written with, unless it is a number, a duration or a timestamp. -/
def shown : Value → List String
  | text s | other s => [s]
  | int _ | uint _ | duration _ | timestamp _ => []

theorem lineFeeds_plain (v : Value) : lineFeeds v.plain = totalFeeds v.shown := by
  cases v with
  | text s => exact (Nat.add_zero _).symm
  | other s => exact (Nat.add_zero _).symm
  | int n => exact lineFeeds_eq_zero_iff.mpr (not_mem_toString_int (by decide) (by decide) n)
  | uint n => exact lineFeeds_eq_zero_iff.mpr (not_mem_toString (by decide) n)
  | timestamp t => exact lineFeeds_eq_zero_iff.mpr (t.not_mem_text (by decide) (by decide))
  | duration d =>
      refine lineFeeds_eq_zero_iff.mpr (d.not_mem_token (by decide) ?_)
      intro u
      cases u <;> decide

theorem lineFeeds_literal (v : Value) : lineFeeds v.literal = totalFeeds v.shown := by
  have hmark : lineFeeds "'" = 0 := rfl
  unfold literal
  split
  · rw [lineFeeds_append, lineFeeds_append, hmark, Nat.add_zero, Nat.zero_add, lineFeeds_plain]
  · exact v.lineFeeds_plain

end Value

/-! ### Conditions -/

namespace Condition

/-- Whether the condition is shorthand: values, and no place for them in the text. -/
def IsShorthand (c : Condition) : Prop :=
  c.places = 0 ∧ c.values ≠ []

instance (c : Condition) : Decidable c.IsShorthand :=
  inferInstanceAs (Decidable (_ ∧ _))

/-- The texts that the condition is written with: its own, unless it is shorthand, and those of
    its values. -/
def shown (c : Condition) : List String :=
  (if c.IsShorthand then [] else [c.text]) ++ c.values.flatMap Value.shown

/-- Every condition is its pieces with a place between each two. -/
theorem exists_eq_ofPieces (c : Condition) :
    ∃ first rest, (∀ p ∈ first :: rest, placeholder ∉ p.toList) ∧
      c = ofPieces first rest c.values := by
  obtain ⟨p, ps, hpieces⟩ := List.exists_cons_of_ne_nil
    (List.splitOnP_ne_nil (· == placeholder) c.text.toList)
  refine ⟨String.ofList p, ps.map String.ofList, ?_, ?_⟩
  · rw [← List.map_cons, ← hpieces, List.forall_mem_map]
    intro p hp hmem
    rw [String.toList_ofList] at hmem
    have hfalse := (mem_of_mem_splitOnP hp hmem).2
    cases hfalse
  · have htext : c.text = (ofPieces (String.ofList p) (ps.map String.ofList) c.values).text := by
      apply String.toList_inj.mp
      unfold ofPieces
      rw [String.toList_intercalate, ← List.map_cons, List.map_map, ← hpieces]
      simp only [Function.comp_def, String.toList_ofList, List.map_id']
      exact (List.intercalate_splitOn placeholder).symm
    cases c
    cases htext
    rfl

/-- Pieces and literals, one of each in turn. -/
theorem totalFeeds_zip {rest : List String} {values : List Value}
    (h : rest.length = values.length) :
    totalFeeds ((rest.zip values).map fun (p, v) => v.literal ++ p) =
      totalFeeds rest + totalFeeds (values.flatMap Value.shown) := by
  induction rest generalizing values with
  | nil =>
      rw [List.eq_nil_of_length_eq_zero h.symm]
      rfl
  | cons p rest ih =>
      obtain ⟨v, values, rfl⟩ := List.exists_cons_of_length_eq_add_one h.symm
      rw [List.zip_cons_cons, List.map_cons, List.flatMap_cons, totalFeeds_cons, totalFeeds_cons,
        totalFeeds_append, ih (Nat.succ.inj h), lineFeeds_append, v.lineFeeds_literal]
      omega

/-- Values in the places of a condition leave the line feeds of its text as they are. -/
theorem lineFeeds_of_places {c : Condition} (h : c.places = c.values.length) {text : String}
    (htext : c.compile = .ok text) :
    lineFeeds text = lineFeeds c.text + totalFeeds (c.values.flatMap Value.shown) := by
  obtain ⟨first, rest, hpieces, hc⟩ := c.exists_eq_ofPieces
  have hlength : rest.length = c.values.length := by
    rw [← h, hc, places_ofPieces hpieces]
  have hfeeds : lineFeeds c.text = totalFeeds (first :: rest) := by
    rw [hc]
    exact lineFeeds_intercalate rfl _
  have hcompile := compile_ofPieces hpieces hlength
  rw [← hc, htext] at hcompile
  cases hcompile
  rw [lineFeeds_append, lineFeeds_join, totalFeeds_zip hlength, hfeeds, totalFeeds_cons]
  omega

/-- The words of a text have no line feeds. -/
theorem lineFeeds_of_mem_words (c : Condition) {w : String} (h : w ∈ c.words) :
    lineFeeds w = 0 := by
  obtain ⟨cs, hcs, rfl⟩ := List.mem_map.mp h
  refine lineFeeds_eq_zero_iff.mpr fun hmem => ?_
  rw [String.toList_ofList] at hmem
  have hblank := (mem_of_mem_words hcs hmem).2
  cases hblank

/-- Shorthand that compiles compares a name with its one value. -/
theorem exists_comparison_of_compile {c : Condition} (h : c.IsShorthand) {text : String}
    (htext : c.compile = .ok text) :
    ∃ name operator v, c.values = [v] ∧ lineFeeds name = 0 ∧ lineFeeds operator = 0 ∧
      text = Identifier.quote name ++ " " ++ operator ++ " " ++ v.literal := by
  obtain ⟨hplaces, hvalues⟩ := h
  have hnone : ∀ e, c.explicitText ≠ .error e := by
    intro e he
    rw [compile_of_error he] at htext
    cases htext
  have hsingle (hwords : c.words.length = 1 ∨ c.words.length = 2) : ∃ v, c.values = [v] := by
    by_cases hmany : 2 ≤ c.values.length
    · exact absurd (explicitText_of_many_values hplaces hwords hmany) (hnone _)
    · have hpos := List.length_pos_iff.mpr hvalues
      exact List.length_eq_one_iff.mp (by omega)
  match hwords : c.words with
  | [] => exact absurd (explicitText_of_no_word hplaces hwords hvalues) (hnone _)
  | [name] =>
      obtain ⟨v, hv⟩ := hsingle (by simp [hwords])
      rw [compile_of_one_word hplaces hwords hv] at htext
      cases htext
      exact ⟨name, "=", v, hv, c.lineFeeds_of_mem_words (by simp [hwords]), rfl, rfl⟩
  | [name, operator] =>
      obtain ⟨v, hv⟩ := hsingle (by simp [hwords])
      rw [compile_of_two_words hplaces hwords hv] at htext
      cases htext
      exact ⟨name, operator, v, hv, c.lineFeeds_of_mem_words (by simp [hwords]),
        c.lineFeeds_of_mem_words (by simp [hwords]), rfl⟩
  | _ :: _ :: _ :: _ =>
      exact absurd (explicitText_of_many_words hplaces (by simp [hwords]) hvalues) (hnone _)

/-- Any other condition that compiles has a place for each of its values. -/
theorem places_of_compile {c : Condition} (hshort : ¬ c.IsShorthand) {text : String}
    (htext : c.compile = .ok text) : c.places = c.values.length := by
  by_cases hpos : 0 < c.places
  · by_contra hne
    rw [compile_of_error (explicitText_of_mismatch hpos hne)] at htext
    cases htext
  · have hzero : c.places = 0 := by omega
    have hvalues : c.values = [] := by
      by_contra hne
      exact hshort ⟨hzero, hne⟩
    rw [hzero, hvalues, List.length_nil]

/-- What a condition compiles to has the line feeds of the texts it is written with. -/
theorem lineFeeds_of_compile {c : Condition} {text : String} (h : c.compile = .ok text) :
    lineFeeds text = totalFeeds c.shown := by
  unfold shown
  by_cases hshort : c.IsShorthand
  · obtain ⟨name, operator, v, hv, hname, hoperator, rfl⟩ := exists_comparison_of_compile hshort h
    have hspace : lineFeeds " " = 0 := rfl
    rw [if_pos hshort, hv]
    simp [hname, hoperator, hspace, v.lineFeeds_literal]
  · rw [if_neg hshort, totalFeeds_append, lineFeeds_of_places (places_of_compile hshort h) h,
      totalFeeds_cons, totalFeeds_nil, Nat.add_zero]

end Condition

end SeriesQuery
