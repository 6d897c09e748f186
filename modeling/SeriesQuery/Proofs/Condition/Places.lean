/-
Values in the places of a condition.

Three passes over the text decide what a condition compiles to: counting its places, cutting it
at them, and pairing the pieces with the values.  Cut into its pieces, a text shows that they
agree: between `k + 1` pieces there are `k` places, cutting gives the pieces back, and no piece
is left without a value exactly when there are `k` values.  What a value's literal contains is
never looked at, since only the text that was given is cut.
-/
import SeriesQuery.Condition

namespace SeriesQuery

namespace Condition

/-! ### The three passes -/

/-- The text of a condition whose pieces are given: a place between each two. -/
def ofPieces (first : String) (rest : List String) (values : List Value) : Condition :=
  ⟨"?".intercalate (first :: rest), values⟩

private theorem toList_ofPieces (first : String) (rest : List String) (values : List Value) :
    (ofPieces first rest values).text.toList =
      [placeholder].intercalate ((first :: rest).map String.toList) := by
  unfold ofPieces
  rw [String.toList_intercalate]
  rfl

private theorem count_intercalate {x : Char} {pieces : List (List Char)} :
    ∀ {first : List Char}, (∀ p ∈ first :: pieces, x ∉ p) →
      ([x].intercalate (first :: pieces)).count x = pieces.length := by
  induction pieces with
  | nil =>
      intro first h
      rw [List.intercalate_singleton]
      exact List.count_eq_zero.mpr (h first (by simp))
  | cons second pieces ih =>
      intro first h
      have hrest : ([x].intercalate (second :: pieces)).count x = pieces.length :=
        ih fun p hp => h p (List.mem_cons_of_mem _ hp)
      have hfirst : first.count x = 0 := List.count_eq_zero.mpr (h first (by simp))
      rw [List.intercalate_cons_cons, List.count_append, List.count_append, hrest, hfirst,
        List.count_singleton_self, List.length_cons]
      omega

variable {first : String} {rest : List String}

/-- Counting: as many places as pieces behind the first. -/
theorem places_ofPieces (h : ∀ p ∈ first :: rest, placeholder ∉ p.toList)
    (values : List Value) : (ofPieces first rest values).places = rest.length := by
  unfold places
  rw [toList_ofPieces, List.map_cons, count_intercalate, List.length_map]
  intro p hp
  rw [← List.map_cons, List.mem_map] at hp
  obtain ⟨q, hq, rfl⟩ := hp
  exact h q hq

/-- Cutting and pairing: the first piece, then each piece behind the literal of its value. -/
theorem substitute_ofPieces (h : ∀ p ∈ first :: rest, placeholder ∉ p.toList)
    (values : List Value) :
    substitute (ofPieces first rest values).text.toList values =
      first.toList ++ (rest.zip values).flatMap fun (p, v) => v.literal.toList ++ p.toList := by
  have hcut : (ofPieces first rest values).text.toList.splitOn placeholder =
      first.toList :: rest.map String.toList := by
    rw [toList_ofPieces, List.splitOn_intercalate, List.map_cons]
    · intro p hp
      obtain ⟨q, hq, rfl⟩ := List.mem_map.mp hp
      exact h q hq
    · simp
  unfold substitute
  rw [hcut]
  simp only [List.zip_map_left, List.flatMap_map]
  rfl

/-! ### The condition -/

theorem explicitText_of_places {c : Condition} (hpos : 0 < c.places)
    (heq : c.places = c.values.length) : c.explicitText = .ok c.text := by
  unfold explicitText
  rw [if_pos hpos, if_pos heq]

theorem explicitText_of_mismatch {c : Condition} (hpos : 0 < c.places)
    (hne : c.places ≠ c.values.length) :
    c.explicitText = .error (.placeholderMismatch c.places c.values.length) := by
  unfold explicitText
  rw [if_pos hpos, if_neg hne]

theorem explicitText_of_verbatim {c : Condition} (hzero : c.places = 0)
    (hnil : c.values = []) : c.explicitText = .ok c.text := by
  unfold explicitText
  simp [hzero, hnil]

theorem compile_of_explicitText {c : Condition} {text : String}
    (h : c.explicitText = .ok text) :
    c.compile = .ok (String.ofList (substitute text.toList c.values)) := by
  unfold compile
  rw [h]
  rfl

/-- The pieces of a condition with the literals of as many values between them. -/
theorem compile_ofPieces (h : ∀ p ∈ first :: rest, placeholder ∉ p.toList)
    {values : List Value} (hlen : rest.length = values.length) :
    (ofPieces first rest values).compile =
      .ok (first ++ String.join ((rest.zip values).map fun (p, v) => v.literal ++ p)) := by
  have hexplicit : (ofPieces first rest values).explicitText =
      .ok (ofPieces first rest values).text := by
    have hplaces := places_ofPieces h values
    by_cases hzero : rest.length = 0
    · refine explicitText_of_verbatim (by omega) ?_
      exact List.eq_nil_of_length_eq_zero (by omega : values.length = 0)
    · refine explicitText_of_places (by omega) ?_
      rw [hplaces]
      exact hlen
  rw [compile_of_explicitText hexplicit]
  congr 1
  apply String.toList_inj.mp
  show (String.ofList (substitute (ofPieces first rest values).text.toList values)).toList = _
  rw [substitute_ofPieces h]
  simp only [String.toList_ofList, String.toList_append, String.toList_join, List.flatMap_map]

/-- A number of values other than the number of places is refused, and both are reported. -/
theorem compile_ofPieces_mismatch (h : ∀ p ∈ first :: rest, placeholder ∉ p.toList)
    {values : List Value} (hpos : 0 < rest.length) (hne : rest.length ≠ values.length) :
    (ofPieces first rest values).compile =
      .error (.placeholderMismatch rest.length values.length) := by
  have hplaces := places_ofPieces h values
  have hexplicit := explicitText_of_mismatch (c := ofPieces first rest values) (by omega)
    (by rw [hplaces]; exact hne)
  unfold compile
  rw [hexplicit, hplaces]
  rfl

/--
**Substitution is positional, complete, and never rescans.**  For pieces without a place in
them, a condition with a place between each two compiles to the pieces with the values'
literals in the places, in order, when there are as many values as places.  With another
number of values, and a place at all, it is refused with both numbers.  Without places and
values it is taken as it stands.
-/
theorem compile_fills_places (first : String) (rest : List String) (values : List Value)
    (h : ∀ p ∈ first :: rest, '?' ∉ p.toList) :
    (rest.length = values.length →
      compile ⟨"?".intercalate (first :: rest), values⟩ =
        .ok (first ++ String.join ((rest.zip values).map fun (p, v) => v.literal ++ p))) ∧
    (0 < rest.length → rest.length ≠ values.length →
      compile ⟨"?".intercalate (first :: rest), values⟩ =
        .error (.placeholderMismatch rest.length values.length)) ∧
    (rest = [] → values = [] →
      compile ⟨"?".intercalate (first :: rest), values⟩ = .ok first) := by
  refine ⟨fun hlen => compile_ofPieces h hlen,
    fun hpos hne => compile_ofPieces_mismatch h hpos hne, ?_⟩
  rintro rfl rfl
  have hlen : ([] : List String).length = ([] : List Value).length := rfl
  have hsame := compile_ofPieces h hlen
  rw [List.zip_nil_left, List.map_nil, String.join_nil, String.append_empty] at hsame
  exact hsame

/-- Question marks, quotes and percent signs in the values stay where the values are put, and a
    value too few is noticed. -/
theorem compile_fills_places_tricky :
    (∀ p ∈ ["", " =~ /%s/ OR a = ", ""], '?' ∉ p.toList) ∧
    compile ⟨"?".intercalate ["", " =~ /%s/ OR a = ", ""], [.text "'?%", .int (-3)]⟩ =
      .ok "''?%' =~ /%s/ OR a = -3" ∧
    compile ⟨"?".intercalate ["", " =~ /%s/ OR a = ", ""], [.text "??"]⟩ =
      .error (.placeholderMismatch 2 1) ∧
    compile ⟨"?".intercalate ["host"], []⟩ = .ok "host" :=
  ⟨by decide,
    (compile_fills_places "" [" =~ /%s/ OR a = ", ""] [.text "'?%", .int (-3)] (by decide)).1 rfl,
    (compile_fills_places "" [" =~ /%s/ OR a = ", ""] [.text "??"] (by decide)).2.1 (by decide)
      (by decide),
    (compile_fills_places "host" [] [] (by decide)).2.2 rfl rfl⟩

end Condition
end SeriesQuery
