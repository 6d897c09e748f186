/-
Names in statements.

A name is quoted once.  What quoting writes shows where it ends, so any text may stand behind it;
and it holds a quote, so it is taken for a name that is quoted already and written as it stands.
The same goes for a policy, a dot and a measurement: with the dot in it the whole is taken for
qualified.  So there are two ways to qualify a measurement, by naming the policy as a part of its
own and by writing it into the measurement's name, and a statement cannot tell them apart.
-/
import SeriesQuery.Proofs.Identifier
import SeriesQuery.Proofs.Statement.Parts

namespace SeriesQuery

namespace Identifier

/-! ### Names that are written as they stand -/

theorem text_of_isVerbatim {name : String} (h : isVerbatim name = true) : text name = name := by
  unfold text
  rw [if_pos h]

theorem isVerbatim_of_quote_mem {name : String} (h : '"' ∈ name.toList) :
    isVerbatim name = true := by
  unfold isVerbatim
  rw [List.contains_iff_mem.mpr h, Bool.true_or, Bool.true_or]

theorem isVerbatim_of_dot_mem {name : String} (h : '.' ∈ name.toList) :
    isVerbatim name = true := by
  unfold isVerbatim
  rw [List.contains_iff_mem.mpr h, Bool.or_true, Bool.true_or]

/-- A name that has been written is written as it stands from then on. -/
theorem isVerbatim_text (name : String) : isVerbatim (text name) = true := by
  unfold text
  split
  · assumption
  · refine isVerbatim_of_quote_mem ?_
    rw [toList_quote]
    exact List.mem_cons_self

theorem text_ne_empty (name : String) : text name ≠ "" := by
  intro h
  have hverbatim := isVerbatim_text name
  rw [h] at hverbatim
  cases hverbatim

theorem text_text (name : String) : text (text name) = text name :=
  text_of_isVerbatim (isVerbatim_text name)

/-- A policy, a dot and a measurement are written as they stand. -/
theorem text_qualifiedName (policy measurement : String) :
    text (qualifiedName (some policy) measurement) = qualifiedName (some policy) measurement := by
  refine text_of_isVerbatim (isVerbatim_of_dot_mem ?_)
  unfold qualifiedName
  simp

end Identifier

namespace Fragment

open Identifier

theorem compile_name (s : String) : (name s).compile = .ok (text s) := by
  unfold compile
  rfl

/-! ### Quoted names -/

/--
**A quoted name shows where it ends.**  A reader that takes a backslash together with the
character behind it, and stops at the first quote that stands alone, reads from a quoted name just
the name and leaves just the text behind it; it reads nothing from a part of the quoted name that
breaks off.  So no two names are quoted alike.  What a plain name compiles to is read in the same
way, and no two plain names compile alike.
-/
theorem quoted_name_shows_its_end (s : String) :
    Writes (quote s) s ∧
    (∀ other, quote other = quote s → other = s) ∧
    (IsPlain s → ∃ text, (name s).compile = .ok text ∧ Writes text s ∧
      ∀ other, IsPlain other → (name other).compile = .ok text → other = s) := by
  have hinjective (other : String) (h : quote other = quote s) : other = s := by
    have hother := writes_quote other
    rw [h] at hother
    exact hother.unique (writes_quote s)
  have hcompile {s : String} (h : IsPlain s) : (name s).compile = .ok (quote s) := by
    rw [compile_name, text_of_isPlain h]
  refine ⟨writes_quote s, hinjective, fun hplain => ⟨quote s, hcompile hplain, writes_quote s, ?_⟩⟩
  intro other hother h
  rw [hcompile hother, Except.ok.injEq] at h
  exact hinjective other h

/-- The backslash at the end of a name does not take the closing quote, and the quotes inside it
    and behind it are told apart from that one. -/
theorem quoted_name_shows_its_end_of_backslash :
    IsPlain "C:\\" ∧ (name "C:\\").compile = .ok "\"C:\\\\\"" ∧
      read? "\"C:\\\\\" = \"x\"".toList = some ("C:\\".toList, " = \"x\"".toList) ∧
      read? "\"C:\\\\".toList = none := by
  have hplain : IsPlain "C:\\" := by decide
  obtain ⟨-, -, hname⟩ := quoted_name_shows_its_end "C:\\"
  obtain ⟨text, hcompile, hwrites, -⟩ := hname hplain
  have htext : text = "\"C:\\\\\"" := by
    cases hcompile
    rfl
  subst htext
  exact ⟨hplain, hcompile, hwrites.read " = \"x\"", hwrites.whole _ (by decide) (by decide)⟩

/-! ### Qualified names -/

variable {policy measurement : Fragment} {p m : String}

/-- A measurement that brings its policy along in its name. -/
theorem compile_qualifiedName (p m : String) :
    (name (p ++ "." ++ m)).compile = .ok (qualifiedName (some p) m) := by
  rw [compile_name]
  exact congrArg Except.ok (text_qualifiedName p m)

theorem compileOption_of_ok (h : policy.compile = .ok p) :
    compileOption (some policy) = .ok (some p) := by
  unfold compileOption
  rw [h]
  rfl

/-- A SELECT reads from the same source, whichever way its measurement is qualified. -/
theorem compile_select_qualified (hpolicy : policy.compile = .ok p)
    (hmeasurement : measurement.compile = .ok m) (s : Select Fragment) :
    (Statement.select { s with
      measurement := some measurement, retentionPolicy := some policy }).compile =
    (Statement.select { s with
      measurement := some (name (p ++ "." ++ m)), retentionPolicy := none }).compile := by
  have hnone : compileOption none = .ok none := compileOption_name none
  rw [Select.compile_eq_clauses, Select.compile_eq_clauses]
  unfold Select.clauses
  simp only [hmeasurement, compileOption_of_ok hpolicy, compile_qualifiedName, hnone,
    Composed.ok_bind, map_bind, map_pure]
  rfl

/-- The keys of the same source are shown, whichever way its measurement is qualified. -/
theorem compile_showKeys_qualified (hpolicy : policy.compile = .ok p)
    (hmeasurement : measurement.compile = .ok m) (kind : KeyKind) (s : KeysScope Fragment) :
    (Statement.showKeys kind { s with
      measurement := some measurement, retentionPolicy := some policy }).compile =
    (Statement.showKeys kind { s with
      measurement := some (name (p ++ "." ++ m)), retentionPolicy := none }).compile := by
  have hnone : compileOption none = .ok none := compileOption_name none
  show compileKeys kind _ = compileKeys kind _
  unfold compileKeys
  simp only [compileOption_of_ok hpolicy, compileOption_of_ok hmeasurement,
    compileOption_of_ok (compile_qualifiedName p m), hnone, Composed.ok_bind]
  rfl

/--
**A name is written once.**  What a name compiles to, taken for a name again, compiles to itself.
So a measurement can be qualified in two ways that no statement tells apart: by a policy of its
own, and by a name that is what the policy compiles to, a dot, and what the measurement compiles
to.  Text or failure, a SELECT, a SHOW TAG KEYS and a SHOW FIELD KEYS compile to the same with
either.
-/
theorem written_names_stay :
    (∀ s : String, ∃ t, (name s).compile = .ok t ∧ (name t).compile = .ok t) ∧
    ∀ (policy measurement : Fragment) (p m : String),
      policy.compile = .ok p → measurement.compile = .ok m →
      (∀ s : Select Fragment,
        (Statement.select { s with
          measurement := some measurement, retentionPolicy := some policy }).compile =
        (Statement.select { s with
          measurement := some (name (p ++ "." ++ m)), retentionPolicy := none }).compile) ∧
      ∀ (kind : KeyKind) (s : KeysScope Fragment),
        (Statement.showKeys kind { s with
          measurement := some measurement, retentionPolicy := some policy }).compile =
        (Statement.showKeys kind { s with
          measurement := some (name (p ++ "." ++ m)), retentionPolicy := none }).compile := by
  refine ⟨fun s => ⟨text s, compile_name s, ?_⟩, ?_⟩
  · rw [compile_name, text_text]
  · intro policy measurement p m hpolicy hmeasurement
    exact ⟨compile_select_qualified hpolicy hmeasurement,
      compile_showKeys_qualified hpolicy hmeasurement⟩

/-- The name of a qualified measurement beside other clauses, and in a failure that comes later. -/
theorem written_names_stay_qualified :
    let source := "\"week\".\"cpu load\""
    let s : Select Fragment := { Select.ofFields [.name "a"] with limit := some 0 }
    (name "week").compile = .ok "\"week\"" ∧ (name "cpu load").compile = .ok "\"cpu load\"" ∧
    (Statement.select { s with measurement := some (name source) }).compile =
      .ok "SELECT \"a\" FROM \"week\".\"cpu load\" LIMIT 0" ∧
    (Statement.select { s with
      measurement := some (name source), fill := some (.number "inf") }).compile =
        .error (.invalidFill "inf") ∧
    (Statement.showKeys .tag ⟨none, some (name source), none⟩).compile =
      .ok "SHOW TAG KEYS FROM \"week\".\"cpu load\"" := by
  intro source s
  have hpolicy : (name "week").compile = .ok "\"week\"" := compile_name "week"
  have hmeasurement : (name "cpu load").compile = .ok "\"cpu load\"" := compile_name "cpu load"
  obtain ⟨-, hjoined⟩ := written_names_stay
  obtain ⟨hselect, hkeys⟩ := hjoined _ _ _ _ hpolicy hmeasurement
  exact ⟨hpolicy, hmeasurement, (hselect s).symm,
    (hselect { s with fill := some (.number "inf") }).symm,
    (hkeys .tag KeysScope.everywhere).symm⟩

end Fragment
end SeriesQuery
