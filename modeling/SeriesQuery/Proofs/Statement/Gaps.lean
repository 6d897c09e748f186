/-
Gaps in statements.

A statement is a row of phrases with one space between each two, so it has a gap exactly when a
phrase has one.  The selection of a SELECT and the measurement of a DELETE are phrases of their
own, left out when they are empty, and then the keyword stands alone.  Any other clause is
written as soon as it is set, and an empty text at an end of what it says leaves a space over.
For parts that have no gap in themselves this is all that can go wrong: an empty condition, an
empty text at the end of a list, and an empty measurement.
-/
import SeriesQuery.Proofs.Literal
import SeriesQuery.Proofs.Numeral
import SeriesQuery.Proofs.Statement.Parts
import SeriesQuery.Proofs.Text.Spacing

namespace SeriesQuery

open Text

/-! ### Phrases -/

namespace Phrases

/-- What a list of texts is as the content of a clause; without a text there is no clause. -/
def listed (separator : String) (items : List String) : Option String :=
  if items = [] then none else some (separator.intercalate items)

theorem listClause_eq (keyword separator : String) (items : List String) :
    listClause keyword separator items = clause keyword (listed separator items) := by
  cases items <;> rfl

theorem forall_bare_isSolid_iff (t : String) :
    (∀ p ∈ bare t, IsSolid p.toList) ↔ IsTidy t.toList := by
  unfold bare
  by_cases h : t = ""
  · subst h
    simp [isTidy_nil]
  · have hempty : t.isEmpty = false := by simpa using h
    rw [hempty]
    simp [IsSolid, h]

theorem forall_clause_isSolid_iff {keyword : String} (hk : IsSolid keyword.toList)
    (content : Option String) :
    (∀ p ∈ clause keyword content, IsSolid p.toList) ↔ ∀ t ∈ content, IsSolid t.toList := by
  cases content with
  | none => simp [clause]
  | some t => simpa [clause] using isSolid_behind_iff hk t

/-- The phrases of a statement: a keyword and a text of its own, clauses, and closing phrases. -/
def row (keyword own : String) (clauses : List (String × Option String)) (closing : Phrases) :
    Phrases :=
  keyword :: (bare own ++ ((clauses.flatMap fun x => clause x.1 x.2) ++ closing))

/-- A row has no gap and no keyword without content exactly when every content is solid. -/
theorem isTidy_row_iff {keyword own : String} {clauses : List (String × Option String)}
    {closing : Phrases} (hkeyword : IsSolid keyword.toList)
    (hkeywords : ∀ x ∈ clauses, IsSolid x.1.toList) (hclosing : ∀ p ∈ closing, IsSolid p.toList) :
    (IsTidy (text (row keyword own clauses closing)).toList ∧
        ∀ x ∈ (keyword, some own) :: clauses, x.2 ≠ some "") ↔
      ∀ x ∈ (keyword, some own) :: clauses, ∀ t ∈ x.2, IsSolid t.toList := by
  have hclauses : (∀ p ∈ clauses.flatMap fun x => clause x.1 x.2, IsSolid p.toList) ↔
      ∀ x ∈ clauses, ∀ t ∈ x.2, IsSolid t.toList := by
    constructor
    · intro h x hx
      refine (forall_clause_isSolid_iff (hkeywords x hx) x.2).mp fun p hp => h p ?_
      exact List.mem_flatMap.mpr ⟨x, hx, hp⟩
    · intro h p hp
      obtain ⟨x, hx, hp⟩ := List.mem_flatMap.mp hp
      exact (forall_clause_isSolid_iff (hkeywords x hx) x.2).mpr (h x hx) p hp
  have htext : IsTidy (text (row keyword own clauses closing)).toList ↔
      IsTidy own.toList ∧ ∀ x ∈ clauses, ∀ t ∈ x.2, IsSolid t.toList := by
    have hne : (text (row keyword own clauses closing)).toList ≠ [] := by
      unfold row
      rw [toList_text_cons]
      exact List.append_ne_nil_of_left_ne_nil hkeyword.1 _
    have hsolid : IsTidy (text (row keyword own clauses closing)).toList ↔
        IsSolid (text (row keyword own clauses closing)).toList :=
      (and_iff_right hne).symm
    rw [hsolid]
    unfold text row
    rw [isSolid_spaced_iff, List.forall_mem_cons, and_iff_right hkeyword,
      List.forall_mem_append, List.forall_mem_append, forall_bare_isSolid_iff, hclauses]
    exact and_congr_right fun _ => and_iff_left hclosing
  constructor
  · rintro ⟨htidy, hne⟩
    obtain ⟨hown, hcontents⟩ := htext.mp htidy
    intro x hx
    rcases List.mem_cons.mp hx with rfl | hx
    · rintro t ⟨⟩
      refine (isSolid_iff_of_isTidy hown).mpr ?_
      rintro rfl
      exact hne _ List.mem_cons_self rfl
    · exact hcontents x hx
  · intro h
    refine ⟨htext.mpr ⟨(h _ List.mem_cons_self own rfl).2,
      fun x hx => h x (List.mem_cons_of_mem _ hx)⟩, ?_⟩
    intro x hx hempty
    exact (h x hx "" hempty).1 rfl

theorem forall_listed_spaced_iff {items : List String} (h : ∀ t ∈ items, IsTidy t.toList) :
    (∀ t ∈ listed " " items, IsSolid t.toList) ↔ "" ∉ items := by
  cases items with
  | nil => simp [listed]
  | cons first rest =>
      have hlisted : listed " " (first :: rest) = some (" ".intercalate (first :: rest)) := rfl
      simp only [hlisted, Option.mem_def, Option.some.injEq, forall_eq', isSolid_spaced_iff]
      constructor
      · intro hsolid hmem
        exact (hsolid "" hmem).1 rfl
      · intro hmem t ht
        refine (isSolid_iff_of_isTidy (h t ht)).mpr ?_
        rintro rfl
        exact hmem ht

theorem forall_listed_iff {items : List String} (h : ∀ t ∈ items, IsTidy t.toList) :
    (∀ t ∈ listed ", " items, IsSolid t.toList) ↔ items.getLast? ≠ some "" := by
  cases items with
  | nil => simp [listed]
  | cons first rest =>
      have hlisted : listed ", " (first :: rest) = some (", ".intercalate (first :: rest)) := rfl
      simp only [hlisted, Option.mem_def, Option.some.injEq, forall_eq', isSolid_listed_iff h]

/-- A number is solid. -/
theorem isSolid_toString (n : Nat) : IsSolid (toString n).toList := by
  refine ⟨?_, isTidy_of_not_mem (not_mem_toString (by decide) n)⟩
  rw [Nat.toString_eq_repr, Nat.toList_repr]
  exact Nat.toDigits_ne_nil

end Phrases

/-- A tidy measurement is solid behind a policy; without one it must not be empty. -/
theorem isSolid_qualifiedName_iff {policy : Option String} {measurement : String}
    (hpolicy : ∀ p ∈ policy, IsTidy p.toList) (hmeasurement : IsTidy measurement.toList) :
    IsSolid (qualifiedName policy measurement).toList ↔ (policy = none → measurement ≠ "") := by
  cases policy with
  | none => simpa [qualifiedName] using isSolid_iff_of_isTidy hmeasurement
  | some p =>
      have hdot : IsTidy ['.'] := by decide
      have hsplit : (qualifiedName (some p) measurement).toList =
          p.toList ++ ['.'] ++ measurement.toList := by
        simp [qualifiedName]
      have htidy := ((hpolicy p rfl).append hdot).append hmeasurement
      have hsolid : IsSolid (qualifiedName (some p) measurement).toList :=
        ⟨by simp [hsplit], hsplit ▸ htidy⟩
      simp [hsolid]

/-! ### SELECT -/

namespace Select.Clauses

/-- No part of the SELECT has a gap in itself; it may be empty. -/
structure TidyParts (c : Clauses) : Prop where
  measurement : IsTidy c.measurement.toList
  retentionPolicy : ∀ p ∈ c.retentionPolicy, IsTidy p.toList
  fields : ∀ t ∈ c.fields, IsTidy t.toList
  conditions : ∀ t ∈ c.conditions, IsTidy t.toList
  groupBy : ∀ t ∈ c.groupBy, IsTidy t.toList
  orderBy : ∀ t ∈ c.orderBy, IsTidy t.toList

/-- No part is empty where that would leave a space or a keyword alone. -/
structure Filled (c : Clauses) : Prop where
  lastField : c.fields.getLast? ≠ some ""
  source : c.retentionPolicy = none → c.measurement ≠ ""
  conditions : "" ∉ c.conditions
  lastGroup : c.groupBy.getLast? ≠ some ""
  lastOrder : c.orderBy.getLast? ≠ some ""

/-- Every clause from the source on with what belongs to its keyword, if it is there. -/
def furtherContents (c : Clauses) : List (String × Option String) :=
  [("FROM", some c.source), ("WHERE", Phrases.listed " " c.conditions),
    ("GROUP BY", Phrases.listed ", " c.groupBy), ("ORDER BY", Phrases.listed ", " c.orderBy),
    ("LIMIT", c.limit.map toString), ("OFFSET", c.offset.map toString),
    ("SLIMIT", c.seriesLimit.map toString), ("SOFFSET", c.seriesOffset.map toString)]

/-- Every clause with what belongs to its keyword, if it is there. -/
def contents (c : Clauses) : List (String × Option String) :=
  ("SELECT", some c.selection) :: c.furtherContents

theorem phrases_eq_row (c : Clauses) :
    c.phrases = Phrases.row "SELECT" c.selection c.furtherContents
      (c.fill.toList.map fun f => "fill(" ++ f ++ ")") := by
  unfold phrases Phrases.row furtherContents source
  simp only [Phrases.listClause_eq, Phrases.numberClause, List.flatMap_cons, List.flatMap_nil,
    List.append_assoc, List.nil_append]

theorem isSolid_selection_iff {c : Clauses} (h : ∀ t ∈ c.fields, IsTidy t.toList) :
    IsSolid c.selection.toList ↔ c.fields.getLast? ≠ some "" := by
  unfold selection
  cases hfields : c.fields with
  | nil => simpa using (by decide : IsSolid "*".toList)
  | cons first rest =>
      rw [hfields] at h
      exact isSolid_listed_iff h

theorem forall_number_isSolid (n : Option Nat) : ∀ t ∈ n.map toString, IsSolid t.toList := by
  intro t ht
  obtain ⟨m, -, rfl⟩ := Option.map_eq_some_iff.mp ht
  exact Phrases.isSolid_toString m

theorem forall_contents_isSolid_iff {c : Clauses} (h : c.TidyParts) :
    (∀ x ∈ c.contents, ∀ t ∈ x.2, IsSolid t.toList) ↔ c.Filled := by
  have hselection := isSolid_selection_iff h.fields
  have hsource : IsSolid c.source.toList ↔ (c.retentionPolicy = none → c.measurement ≠ "") :=
    isSolid_qualifiedName_iff h.retentionPolicy h.measurement
  have hconditions := Phrases.forall_listed_spaced_iff h.conditions
  have hgroup := Phrases.forall_listed_iff h.groupBy
  have horder := Phrases.forall_listed_iff h.orderBy
  constructor
  · intro hsolid
    unfold contents furtherContents at hsolid
    simp only [List.forall_mem_cons] at hsolid
    obtain ⟨hselected, hread, hwhere, hgrouped, hordered, -⟩ := hsolid
    exact ⟨hselection.mp (hselected _ rfl), hsource.mp (hread _ rfl), hconditions.mp hwhere,
      hgroup.mp hgrouped, horder.mp hordered⟩
  · intro hfilled
    unfold contents furtherContents
    simp only [List.forall_mem_cons]
    refine ⟨?_, ?_, hconditions.mpr hfilled.conditions, hgroup.mpr hfilled.lastGroup,
      horder.mpr hfilled.lastOrder, forall_number_isSolid _, forall_number_isSolid _,
      forall_number_isSolid _, forall_number_isSolid _, by simp⟩
    · rintro t ⟨⟩
      exact hselection.mpr hfilled.lastField
    · rintro t ⟨⟩
      exact hsource.mpr hfilled.source

/-- The statement has no gap and no keyword without content exactly when it is filled. -/
theorem isTidy_text_iff {c : Clauses} (h : c.TidyParts)
    (hfill : ∀ f ∈ c.fill, f ≠ "" ∧ ' ' ∉ f.toList) :
    (IsTidy c.text.toList ∧ ∀ x ∈ c.contents, x.2 ≠ some "") ↔ c.Filled := by
  have hclosing : ∀ p ∈ c.fill.toList.map fun f => "fill(" ++ f ++ ")", IsSolid p.toList := by
    intro p hp
    obtain ⟨f, hf, rfl⟩ := List.mem_map.mp hp
    have hspace := (hfill f (Option.mem_toList.mp hf)).2
    exact ⟨by simp, isTidy_of_not_mem (by simpa using hspace)⟩
  have hkeywords : ∀ x ∈ c.furtherContents, IsSolid x.1.toList := by
    unfold furtherContents
    simp only [List.forall_mem_cons]
    decide
  rw [← forall_contents_isSolid_iff h]
  unfold text
  rw [phrases_eq_row]
  exact Phrases.isTidy_row_iff (by decide) hkeywords hclosing

end Select.Clauses

/-- A fill that composes is something, and has no space in it. -/
theorem Select.fill_of_clauses {s : Select Fragment} {c : Clauses} (h : s.clauses = .ok c) :
    ∀ f ∈ c.fill, f ≠ "" ∧ ' ' ∉ f.toList := by
  intro f hf
  have hfill := (clauses_eq_ok_iff.mp h).fill
  rw [hf] at hfill
  generalize s.fill = fill at hfill
  obtain ⟨hx⟩ := hfill
  exact Fill.text_of_compile hx

/-! ### DELETE -/

namespace Delete.Clauses

/-- No part of the DELETE has a gap in itself; it may be empty. -/
structure TidyParts (c : Clauses) : Prop where
  measurement : IsTidy c.measurement.toList
  conditions : ∀ t ∈ c.conditions, IsTidy t.toList

/-- No part is empty where that would leave a space or a keyword alone. -/
structure Filled (c : Clauses) : Prop where
  measurement : c.measurement ≠ ""
  conditions : "" ∉ c.conditions

/-- Every clause with what belongs to its keyword, if it is there. -/
def contents (c : Clauses) : List (String × Option String) :=
  [("DELETE FROM", some c.measurement), ("WHERE", Phrases.listed " " c.conditions)]

/-- The statement has no gap and no keyword without content exactly when it is filled. -/
theorem isTidy_text_iff {c : Clauses} (h : c.TidyParts) :
    (IsTidy c.text.toList ∧ ∀ x ∈ c.contents, x.2 ≠ some "") ↔ c.Filled := by
  have htext : c.text = Phrases.text (Phrases.row "DELETE FROM" c.measurement
      [("WHERE", Phrases.listed " " c.conditions)] []) := by
    unfold text Delete.text Phrases.row
    rw [Phrases.listClause_eq, List.append_nil, List.flatMap_singleton]
  have hkeywords : ∀ x ∈ [("WHERE", Phrases.listed " " c.conditions)],
      IsSolid x.1.toList := by
    simp only [List.forall_mem_cons]
    decide
  have hmeasurement := isSolid_iff_of_isTidy h.measurement
  have hconditions := Phrases.forall_listed_spaced_iff h.conditions
  unfold contents
  rw [htext, Phrases.isTidy_row_iff (by decide) hkeywords (by simp)]
  simp only [List.forall_mem_cons]
  constructor
  · rintro ⟨hown, hwhere, -⟩
    exact ⟨hmeasurement.mp (hown _ rfl), hconditions.mp hwhere⟩
  · rintro ⟨hown, hwhere⟩
    refine ⟨?_, hconditions.mpr hwhere, by simp⟩
    rintro t ⟨⟩
    exact hmeasurement.mpr hown

end Delete.Clauses

/-! ### Statements without gaps -/

/--
**A statement has no gap exactly when it is filled.**  Take a SELECT or a DELETE that composes,
whose parts have no space at an end and none doubled, though they may be empty.  The statement
has no such space, and no keyword without content, exactly when no condition is empty, no list
ends with an empty text, and there is something to read or to delete from.
-/
theorem gapless_iff_filled (s : Select Fragment) (d : Delete Fragment) :
    (∀ t, (Statement.select s).compile = .ok t →
      ∃ c, s.clauses = .ok c ∧ c.text = t ∧ (c.TidyParts →
        ((IsTidy t.toList ∧ ∀ x ∈ c.contents, x.2 ≠ some "") ↔ c.Filled))) ∧
    (∀ t, (Statement.delete d).compile = .ok t →
      ∃ c, d.clauses = .ok c ∧ c.text = t ∧ (c.TidyParts →
        ((IsTidy t.toList ∧ ∀ x ∈ c.contents, x.2 ≠ some "") ↔ c.Filled))) := by
  constructor
  · intro t h
    rw [Select.compile_eq_clauses] at h
    obtain ⟨c, hc, rfl⟩ := Composed.map_eq_ok_iff.mp h
    exact ⟨c, hc, rfl, fun htidy =>
      Select.Clauses.isTidy_text_iff htidy (Select.fill_of_clauses hc)⟩
  · intro t h
    rw [Delete.compile_eq_clauses] at h
    obtain ⟨c, hc, rfl⟩ := Composed.map_eq_ok_iff.mp h
    exact ⟨c, hc, rfl, Delete.Clauses.isTidy_text_iff⟩

/-- An empty text at the front of a list leaves no gap. -/
theorem gapless_behind_empty_field :
    let s := (Select.ofFields [.raw "", .name "x"]).applyAll [.measurement (.name "m")]
    (Statement.select s).compile = .ok "SELECT , \"x\" FROM \"m\"" ∧
      ∃ c, s.clauses = .ok c ∧ c.TidyParts ∧ c.Filled ∧
        IsTidy "SELECT , \"x\" FROM \"m\"".toList ∧ ∀ x ∈ c.contents, x.2 ≠ some "" := by
  intro s
  have hcompile : (Statement.select s).compile = .ok "SELECT , \"x\" FROM \"m\"" := rfl
  have hclauses : s.clauses =
      .ok ⟨["", "\"x\""], "\"m\"", none, [], [], [], none, none, none, none, none⟩ := rfl
  obtain ⟨c, hc, -, hiff⟩ := (gapless_iff_filled s Delete.empty).1 _ hcompile
  obtain rfl := Except.ok.inj (hclauses.symm.trans hc)
  have htidy : Select.Clauses.TidyParts
      ⟨["", "\"x\""], "\"m\"", none, [], [], [], none, none, none, none, none⟩ :=
    ⟨by decide, by decide, by decide, by decide, by decide, by decide⟩
  have hfilled : Select.Clauses.Filled
      ⟨["", "\"x\""], "\"m\"", none, [], [], [], none, none, none, none, none⟩ :=
    ⟨by decide, by decide, by decide, by decide, by decide⟩
  exact ⟨hcompile, _, hclauses, htidy, hfilled, (hiff htidy).mpr hfilled⟩

/-- An empty condition leaves two spaces side by side behind its keyword. -/
theorem gap_of_empty_condition :
    let s := (Select.ofFields []).applyAll
      [.measurement (.name "m"), .only ⟨"", []⟩, .limit 1]
    (Statement.select s).compile = .ok "SELECT * FROM \"m\" WHERE  LIMIT 1" ∧
      (∃ c, s.clauses = .ok c ∧ c.TidyParts) ∧
      ¬ IsTidy "SELECT * FROM \"m\" WHERE  LIMIT 1".toList :=
  ⟨rfl, ⟨_, rfl, by decide, by decide, by decide, by decide, by decide, by decide⟩, by decide⟩

end SeriesQuery
