/-
Shorthand conditions.

A text without places that comes with one value compares a name with the value: its first word
is the name, its second the operator, and a missing operator is `=`.  The name is quoted before
the value is put in, and neither the quoted name nor the operator has a place in it, so the one
place there is takes the value.

The number of words is looked at before the number of values, and the text itself shows only in
what is said about three words or more.  So up to two words nothing but the words counts.
-/
import SeriesQuery.Proofs.Condition.Places
import SeriesQuery.Proofs.Identifier
import SeriesQuery.Proofs.Text.Words

namespace SeriesQuery

namespace Condition

variable {c : Condition} {name operator : String} {v : Value}

/-! ### Words -/

/-- A word of a condition without places has no place in it either. -/
theorem not_mem_of_mem_words (hplaces : c.places = 0) {w : String} (hw : w ∈ c.words) :
    placeholder ∉ w.toList := by
  obtain ⟨cs, hcs, rfl⟩ := List.mem_map.mp hw
  rw [String.toList_ofList]
  intro hmem
  exact List.count_eq_zero.mp hplaces (Text.mem_of_mem_words hcs hmem).1

/-- Quoting a name adds no place. -/
theorem not_mem_quote (h : placeholder ∉ name.toList) :
    placeholder ∉ (Identifier.quote name).toList := by
  intro hmem
  rcases Identifier.mem_of_mem_quote hmem with hq | hb | hname
  · exact absurd hq (by decide)
  · exact absurd hb (by decide)
  · exact h hname

/-! ### What shorthand stands for -/

theorem explicitText_of_one_word (hplaces : c.places = 0) (hwords : c.words = [name])
    (hvalue : c.values = [v]) : c.explicitText = .ok (comparison name "=") := by
  unfold explicitText
  simp [hplaces, hwords, hvalue]

theorem explicitText_of_two_words (hplaces : c.places = 0) (hwords : c.words = [name, operator])
    (hvalue : c.values = [v]) : c.explicitText = .ok (comparison name operator) := by
  unfold explicitText
  simp [hplaces, hwords, hvalue]

/-- A comparison has one place, at its end. -/
theorem comparison_eq_text (name operator : String) (v : Value) :
    comparison name operator =
      (ofPieces (Identifier.quote name ++ " " ++ operator ++ " ") [""] [v]).text := by
  unfold comparison ofPieces
  rw [String.intercalate_cons_cons, String.intercalate_singleton, String.append_empty]
  rfl

theorem not_mem_comparison (hname : placeholder ∉ name.toList)
    (hoperator : placeholder ∉ operator.toList) :
    ∀ p ∈ [Identifier.quote name ++ " " ++ operator ++ " ", ""], placeholder ∉ p.toList := by
  have hspace : placeholder ∉ " ".toList := by decide
  intro p hp
  rw [List.mem_cons, List.mem_singleton] at hp
  rcases hp with rfl | rfl
  · simp only [String.toList_append, List.mem_append, not_or]
    exact ⟨⟨⟨not_mem_quote hname, hspace⟩, hoperator⟩, hspace⟩
  · exact List.not_mem_nil

/-- The value goes into the only place of a comparison. -/
theorem substitute_comparison (hname : placeholder ∉ name.toList)
    (hoperator : placeholder ∉ operator.toList) (v : Value) :
    String.ofList (substitute (comparison name operator).toList [v]) =
      Identifier.quote name ++ " " ++ operator ++ " " ++ v.literal := by
  rw [comparison_eq_text name operator v, substitute_ofPieces (not_mem_comparison hname hoperator)]
  apply String.toList_inj.mp
  simp

theorem compile_of_explicit_comparison (hexplicit : c.explicitText = .ok (comparison name operator))
    (hvalue : c.values = [v]) (hname : placeholder ∉ name.toList)
    (hoperator : placeholder ∉ operator.toList) :
    c.compile = .ok (Identifier.quote name ++ " " ++ operator ++ " " ++ v.literal) := by
  rw [compile_of_explicitText hexplicit, hvalue, substitute_comparison hname hoperator]

/-- A comparison that is given with its place takes the value there. -/
theorem compile_comparison (hname : placeholder ∉ name.toList)
    (hoperator : placeholder ∉ operator.toList) (v : Value) :
    compile ⟨comparison name operator, [v]⟩ =
      .ok (Identifier.quote name ++ " " ++ operator ++ " " ++ v.literal) := by
  have hplaces : places ⟨comparison name operator, [v]⟩ = 1 := by
    rw [comparison_eq_text name operator v]
    exact places_ofPieces (not_mem_comparison hname hoperator) [v]
  exact compile_of_explicit_comparison (explicitText_of_places (by omega) hplaces) rfl hname
    hoperator

/-- A name alone is compared for equality. -/
theorem compile_of_one_word (hplaces : c.places = 0) (hwords : c.words = [name])
    (hvalue : c.values = [v]) :
    c.compile = .ok (Identifier.quote name ++ " " ++ "=" ++ " " ++ v.literal) := by
  refine compile_of_explicit_comparison (explicitText_of_one_word hplaces hwords hvalue) hvalue
    (not_mem_of_mem_words hplaces ?_) (by decide)
  rw [hwords]
  exact List.mem_singleton_self name

theorem compile_of_two_words (hplaces : c.places = 0) (hwords : c.words = [name, operator])
    (hvalue : c.values = [v]) :
    c.compile = .ok (Identifier.quote name ++ " " ++ operator ++ " " ++ v.literal) := by
  refine compile_of_explicit_comparison (explicitText_of_two_words hplaces hwords hvalue) hvalue
    (not_mem_of_mem_words hplaces ?_) (not_mem_of_mem_words hplaces ?_)
  · rw [hwords]
    exact List.mem_cons_self
  · rw [hwords]
    exact List.mem_cons_of_mem _ (List.mem_singleton_self operator)

/-! ### What is no shorthand -/

theorem compile_of_error {e : ComposeError} (h : c.explicitText = .error e) :
    c.compile = .error e := by
  unfold compile
  rw [h]
  rfl

theorem explicitText_of_no_word (hplaces : c.places = 0) (hwords : c.words = [])
    (hvalues : c.values ≠ []) : c.explicitText = .error .emptyCondition := by
  unfold explicitText
  simp [hplaces, hwords, hvalues]

/-- One or two words stand for one comparison, which has a place for one value. -/
theorem explicitText_of_many_values (hplaces : c.places = 0)
    (hwords : c.words.length = 1 ∨ c.words.length = 2) (hvalues : 2 ≤ c.values.length) :
    c.explicitText = .error .expectedSingleValue := by
  have hsome : c.values ≠ [] := List.ne_nil_of_length_pos (by omega)
  have hmany : c.values.length ≠ 1 := by omega
  unfold explicitText
  match hw : c.words with
  | [name] => simp [hplaces, hsome, hmany]
  | [name, operator] => simp [hplaces, hsome, hmany]
  | [] | _ :: _ :: _ :: _ => simp [hw] at hwords

theorem explicitText_of_many_words (hplaces : c.places = 0) (hwords : 3 ≤ c.words.length)
    (hvalues : c.values ≠ []) : c.explicitText = .error (.unsupportedExpression c.text) := by
  obtain ⟨first, second, third, rest, hwords⟩ : ∃ first second third rest,
      c.words = first :: second :: third :: rest := by
    match hw : c.words with
    | [] | [_] | [_, _] => simp [hw] at hwords
    | first :: second :: third :: rest => exact ⟨first, second, third, rest, rfl⟩
  unfold explicitText
  simp [hplaces, hwords, hvalues]

/-! ### The words decide -/

/-- The maximal runs of a text are the words of its conditions. -/
theorem words_of_runs {text : String} {tokens : List String}
    (h : Text.Runs text.toList (tokens.map String.toList)) (values : List Value) :
    words ⟨text, values⟩ = tokens := by
  unfold words
  rw [h.words_eq, List.map_map]
  simp [Function.comp_def]

/-- A text has a place only if one of its words has. -/
theorem not_mem_of_runs {text text' : String} {tokens : List (List Char)}
    (h : Text.Runs text.toList tokens) (h' : Text.Runs text'.toList tokens)
    (hplace : placeholder ∉ text.toList) : placeholder ∉ text'.toList := by
  intro hmem
  obtain ⟨w, hw, hmem⟩ := h'.exists_mem hmem (by decide)
  rw [← h.words_eq] at hw
  exact hplace (Text.mem_of_mem_words hw hmem).1

/-- Two words and a value compile as the comparison does that has a place for the value. -/
theorem compile_two_words_spelled (hplaces : c.places = 0) (hwords : c.words = [name, operator])
    (hvalue : c.values = [v]) :
    c.compile = compile ⟨Identifier.quote name ++ " " ++ operator ++ " ?", [v]⟩ ∧
    c.compile = .ok (Identifier.quote name ++ " " ++ operator ++ " " ++ v.literal) := by
  have hname : placeholder ∉ name.toList :=
    not_mem_of_mem_words hplaces (hwords ▸ List.mem_cons_self)
  have hoperator : placeholder ∉ operator.toList :=
    not_mem_of_mem_words hplaces (hwords ▸ List.mem_cons_of_mem _ (List.mem_singleton_self _))
  have hspelled : comparison name operator = Identifier.quote name ++ " " ++ operator ++ " ?" := by
    unfold comparison
    rw [String.append_assoc]
    rfl
  have hcompile := compile_of_two_words hplaces hwords hvalue
  rw [← hspelled, compile_comparison hname hoperator]
  exact ⟨hcompile, hcompile⟩

/-- A word and a value compile as the equation does that has a place for the value. -/
theorem compile_one_word_spelled (hplaces : c.places = 0) (hwords : c.words = [name])
    (hvalue : c.values = [v]) :
    c.compile = compile ⟨Identifier.quote name ++ " = ?", [v]⟩ ∧
    c.compile = .ok (Identifier.quote name ++ " = " ++ v.literal) := by
  have hname : placeholder ∉ name.toList :=
    not_mem_of_mem_words hplaces (hwords ▸ List.mem_singleton_self name)
  have hspelled : Identifier.quote name ++ " = ?" = comparison name "=" := by
    unfold comparison
    simp only [String.append_assoc]
    rfl
  have hsides : Identifier.quote name ++ " = " =
      Identifier.quote name ++ " " ++ "=" ++ " " := by
    simp only [String.append_assoc]
    rfl
  have hcompile := compile_of_one_word hplaces hwords hvalue
  rw [hspelled, compile_comparison hname (by decide), hsides]
  exact ⟨hcompile, hcompile⟩

theorem explicitText_eq_of_words {c' : Condition} (hplaces : c.places = 0)
    (hplaces' : c'.places = 0) (hwords : c'.words = c.words) (hfew : c.words.length ≤ 2)
    (hvalues : c'.values = c.values) (hsome : c.values ≠ []) :
    c'.explicitText = c.explicitText := by
  unfold explicitText
  rw [hplaces, hplaces', hwords, hvalues]
  -- Only a failure for three words or more shows the text itself.
  match hw : c.words with
  | [] | [_] | [_, _] => simp [hsome]
  | _ :: _ :: _ :: _ => simp [hw] at hfew

theorem compile_eq_of_words {c' : Condition} (hplaces : c.places = 0)
    (hplaces' : c'.places = 0) (hwords : c'.words = c.words) (hfew : c.words.length ≤ 2)
    (hvalues : c'.values = c.values) (hsome : c.values ≠ []) : c'.compile = c.compile := by
  unfold compile
  rw [explicitText_eq_of_words hplaces hplaces' hwords hfew hvalues hsome, hvalues]

/--
**What shorthand means depends on its words.**  Take a text without a place, its words, and at
least one value.  A name alone, and a name with an operator, compare the quoted name with the one
value, just as the condition does that spells the comparison out; several values are refused
there, whatever the values are.  Without a word, and with three words or more, the condition is
refused for that.  So texts with the same words compile alike as long as there are at most two of
them, wherever their blanks stand.
-/
theorem shorthand_by_words {text : String} {tokens : List String} {values : List Value}
    (hplace : '?' ∉ text.toList) (hruns : Text.Runs text.toList (tokens.map String.toList))
    (hvalues : values ≠ []) :
    (∀ name v, tokens = [name] → values = [v] →
      compile ⟨text, values⟩ = compile ⟨Identifier.quote name ++ " = ?", [v]⟩ ∧
      compile ⟨text, values⟩ = .ok (Identifier.quote name ++ " = " ++ v.literal)) ∧
    (∀ name operator v, tokens = [name, operator] → values = [v] →
      compile ⟨text, values⟩ =
        compile ⟨Identifier.quote name ++ " " ++ operator ++ " ?", [v]⟩ ∧
      compile ⟨text, values⟩ =
        .ok (Identifier.quote name ++ " " ++ operator ++ " " ++ v.literal)) ∧
    (tokens.length = 1 ∨ tokens.length = 2 → 2 ≤ values.length →
      compile ⟨text, values⟩ = .error .expectedSingleValue) ∧
    (tokens = [] → compile ⟨text, values⟩ = .error .emptyCondition) ∧
    (3 ≤ tokens.length → compile ⟨text, values⟩ = .error (.unsupportedExpression text)) ∧
    (tokens.length ≤ 2 → ∀ text' : String, Text.Runs text'.toList (tokens.map String.toList) →
      compile ⟨text', values⟩ = compile ⟨text, values⟩) := by
  have hplaces : places ⟨text, values⟩ = 0 := List.count_eq_zero.mpr hplace
  have hwords : words ⟨text, values⟩ = tokens := words_of_runs hruns values
  refine ⟨?_, ?_, ?_, ?_, ?_, ?_⟩
  · rintro name v rfl rfl
    exact compile_one_word_spelled hplaces hwords rfl
  · rintro name operator v rfl rfl
    exact compile_two_words_spelled hplaces hwords rfl
  · intro hfew hmany
    refine compile_of_error (explicitText_of_many_values hplaces ?_ hmany)
    rw [hwords]
    exact hfew
  · rintro rfl
    exact compile_of_error (explicitText_of_no_word hplaces hwords hvalues)
  · intro hmany
    refine compile_of_error (explicitText_of_many_words hplaces ?_ hvalues)
    rw [hwords]
    exact hmany
  · intro hfew text' hruns'
    have hplace' : placeholder ∉ text'.toList := not_mem_of_runs hruns hruns' hplace
    have hwords' : words ⟨text', values⟩ = tokens := words_of_runs hruns' values
    refine compile_eq_of_words hplaces (List.count_eq_zero.mpr hplace') ?_ ?_ rfl hvalues
    · rw [hwords, hwords']
    · rw [hwords]
      exact hfew

/-- Unusual blanks around a name with a quote and a backslash, and the same words one space
    apart. -/
theorem shorthand_by_words_of_blanks :
    let tokens := ["a\"b\\", ">="]
    '?' ∉ "\u3000a\"b\\\u2003\t>=\n".toList ∧
    Text.Runs "\u3000a\"b\\\u2003\t>=\n".toList (tokens.map String.toList) ∧
    compile ⟨"\u3000a\"b\\\u2003\t>=\n", [.int 500]⟩ =
      compile ⟨"\"a\\\"b\\\\\" >= ?", [.int 500]⟩ ∧
    compile ⟨"a\"b\\ >=", [.int 500]⟩ = .ok "\"a\\\"b\\\\\" >= 500" ∧
    compile ⟨"\u3000a\"b\\\u2003\t>=\n", [.int 1, .int 2]⟩ = .error .expectedSingleValue := by
  intro tokens
  have hplace : '?' ∉ "\u3000a\"b\\\u2003\t>=\n".toList := by decide
  have hruns : Text.Runs "\u3000a\"b\\\u2003\t>=\n".toList (tokens.map String.toList) :=
    Text.words_eq_iff_runs.mp (by decide)
  have hruns' : Text.Runs "a\"b\\ >=".toList (tokens.map String.toList) :=
    Text.words_eq_iff_runs.mp (by decide)
  have hvalue : [Value.int 500] ≠ [] := by decide
  have hvalues : [Value.int 1, .int 2] ≠ [] := by decide
  obtain ⟨-, hone, -, -, -, hsame⟩ := shorthand_by_words hplace hruns hvalue
  obtain ⟨-, -, hmany, -⟩ := shorthand_by_words hplace hruns hvalues
  obtain ⟨hspelled, hok⟩ := hone _ _ _ rfl rfl
  refine ⟨hplace, hruns, hspelled, ?_, hmany (.inr rfl) (by decide)⟩
  rw [hsame (by decide) _ hruns', hok]
  rfl

end Condition
end SeriesQuery
