/-
A statement and its parts.

Composing a SELECT or a DELETE takes two steps: the parts compile one after the other, and then
what they compile to is put together.  Only the first step can fail, and the second writes the
same text around a part whatever the part is: the selection, the source, the WHERE section and
what comes behind it stand side by side.
-/
import SeriesQuery.Fragment
import SeriesQuery.Proofs.Composed
import SeriesQuery.Proofs.Statement.Phrases

namespace SeriesQuery

/-! ### Text behind text -/

namespace Phrases

/-- The phrases as they stand behind others, each behind a space. -/
def trailing (phrases : Phrases) : String :=
  String.ofList (spaced phrases)

@[simp] theorem toList_trailing (phrases : Phrases) :
    (trailing phrases).toList = spaced phrases :=
  String.toList_ofList

theorem text_append (phrase : String) (ps qs : Phrases) :
    text (phrase :: (ps ++ qs)) = text (phrase :: ps) ++ trailing qs := by
  apply String.toList_inj.mp
  rw [toList_text_cons, spaced_append, String.toList_append, toList_text_cons, toList_trailing,
    List.append_assoc]

theorem trailing_append (ps qs : Phrases) : trailing (ps ++ qs) = trailing ps ++ trailing qs := by
  apply String.toList_inj.mp
  rw [toList_trailing, spaced_append, String.toList_append, toList_trailing, toList_trailing]

theorem trailing_clause (keyword t : String) :
    trailing (clause keyword (some t)) = " " ++ keyword ++ " " ++ t := by
  apply String.toList_inj.mp
  rw [toList_trailing, spaced_clause]
  simp [opening]

/-- A keyword and a list of texts, behind a space; nothing without a text in the list. -/
def listSection (keyword separator : String) (items : List String) : String :=
  if items = [] then "" else " " ++ keyword ++ " " ++ separator.intercalate items

/-- A keyword and a number, behind a space; nothing without a number. -/
def numberSection (keyword : String) : Option Nat → String
  | some n => " " ++ keyword ++ " " ++ toString n
  | none => ""

theorem trailing_listClause (keyword separator : String) (items : List String) :
    trailing (listClause keyword separator items) = listSection keyword separator items := by
  cases items with
  | nil => rfl
  | cons t ts => exact trailing_clause keyword (separator.intercalate (t :: ts))

theorem trailing_numberClause (keyword : String) (n : Option Nat) :
    trailing (numberClause keyword n) = numberSection keyword n := by
  cases n with
  | none => rfl
  | some n => exact trailing_clause keyword (toString n)

end Phrases

/-- The WHERE section of a statement, behind a space; nothing, without a term. -/
def whereSection (terms : List String) : String :=
  if terms = [] then "" else " WHERE " ++ " ".intercalate terms

theorem trailing_where (terms : List String) :
    Phrases.trailing (Phrases.listClause "WHERE" " " terms) = whereSection terms :=
  Phrases.trailing_listClause "WHERE" " " terms

/-! ### Fragments in a row -/

namespace Fragment

theorem compileAll_eq_mapM (fs : List Fragment) : compileAll fs = fs.mapM compile := by
  induction fs with
  | nil => rfl
  | cons f fs ih =>
      rw [List.mapM_cons, ← ih]
      rfl

theorem compileAll_eq_ok_iff {fs : List Fragment} {ts : List String} :
    compileAll fs = .ok ts ↔ List.Forall₂ (fun f t => f.compile = .ok t) fs ts := by
  rw [compileAll_eq_mapM, Composed.mapM_eq_ok_iff]

theorem compileOption_eq_mapM (f : Option Fragment) : compileOption f = f.mapM compile := by
  cases f <;> rfl

theorem compileOption_eq_ok_iff {f : Option Fragment} {t : Option String} :
    compileOption f = .ok t ↔ Option.Rel (fun f t => f.compile = .ok t) f t := by
  rw [compileOption_eq_mapM, Composed.option_mapM_eq_ok_iff]

end Fragment

/-! ### SELECT -/

namespace Select

/-- The parts of the SELECT as they stand in it, or the first failure among them. -/
def clauses (s : Select Fragment) : Composed Clauses :=
  match s.measurement with
  | none => .error (.missingMeasurement .select)
  | some measurement => do
    let measurement ← measurement.compile
    let retentionPolicy ← Fragment.compileOption s.retentionPolicy
    let fields ← Fragment.compileAll s.fields
    let conditions ← s.conditions.compile
    let groupBy ← Fragment.compileAll s.groupBy
    let orderBy ← Fragment.compileAll s.orderBy
    let fill ← s.fill.mapM Fill.compile
    return ⟨fields, measurement, retentionPolicy, conditions, groupBy, orderBy, s.limit,
      s.offset, s.seriesLimit, s.seriesOffset, fill⟩

/-- A SELECT composes to what its parts make up. -/
theorem compile_eq_clauses (s : Select Fragment) :
    (Statement.select s).compile = Clauses.text <$> s.clauses := by
  obtain ⟨fields, measurement, policy, conditions, groupBy, orderBy, limit, offset, seriesLimit,
    seriesOffset, fill⟩ := s
  show Fragment.compileStatement (.select _) = _
  unfold Fragment.compileStatement Fragment.compileSelect clauses
  cases measurement with
  | none => rfl
  | some measurement => simp only [map_bind, map_pure]

/-- Each part of the SELECT compiles to the text that stands in the statement. -/
structure CompilesTo (s : Select Fragment) (c : Clauses) : Prop where
  measurement : ∃ m, s.measurement = some m ∧ m.compile = .ok c.measurement
  retentionPolicy : Option.Rel (fun f t => f.compile = .ok t) s.retentionPolicy c.retentionPolicy
  fields : List.Forall₂ (fun f t => f.compile = .ok t) s.fields c.fields
  conditions : List.Forall₂ (fun x t => x.compile = .ok t) s.conditions.terms c.conditions
  groupBy : List.Forall₂ (fun f t => f.compile = .ok t) s.groupBy c.groupBy
  orderBy : List.Forall₂ (fun f t => f.compile = .ok t) s.orderBy c.orderBy
  limit : c.limit = s.limit
  offset : c.offset = s.offset
  seriesLimit : c.seriesLimit = s.seriesLimit
  seriesOffset : c.seriesOffset = s.seriesOffset
  fill : Option.Rel (fun f t => f.compile = .ok t) s.fill c.fill

theorem clauses_eq_ok_iff {s : Select Fragment} {c : Clauses} :
    s.clauses = .ok c ↔ s.CompilesTo c := by
  obtain ⟨fields, measurement, policy, conditions, groupBy, orderBy, limit, offset, seriesLimit,
    seriesOffset, fill⟩ := s
  obtain ⟨fields', measurement', policy', conditions', groupBy', orderBy', limit', offset',
    seriesLimit', seriesOffset', fill'⟩ := c
  cases measurement with
  | none =>
      constructor
      · intro h
        cases h
      · intro h
        obtain ⟨m, hm, -⟩ := h.measurement
        cases hm
  | some m =>
      simp only [clauses, Composed.bind_eq_ok_iff, Fragment.compileOption_eq_ok_iff,
        Fragment.compileAll_eq_ok_iff, WhereClause.compile, Composed.mapM_eq_ok_iff,
        Composed.option_mapM_eq_ok_iff]
      constructor
      · rintro ⟨t, hm, p, hp, fs, hfs, cs, hcs, gs, hgs, os, hos, f, hf, h⟩
        cases h
        exact ⟨⟨m, rfl, hm⟩, hp, hfs, hcs, hgs, hos, rfl, rfl, rfl, rfl, hf⟩
      · rintro ⟨⟨m', hm', hm⟩, hp, hfs, hcs, hgs, hos, hlimit, hoffset, hslimit, hsoffset, hf⟩
        cases hm'
        cases hlimit
        cases hoffset
        cases hslimit
        cases hsoffset
        exact ⟨_, hm, _, hp, _, hfs, _, hcs, _, hgs, _, hos, _, hf, rfl⟩

/-- A SELECT whose parts compile is what their texts make up. -/
theorem CompilesTo.compile_eq {s : Select Fragment} {c : Clauses} (h : s.CompilesTo c) :
    (Statement.select s).compile = .ok c.text := by
  rw [compile_eq_clauses, clauses_eq_ok_iff.mpr h]
  rfl

namespace Clauses

/-- What the statement reads from. -/
def source (c : Clauses) : String :=
  qualifiedName c.retentionPolicy c.measurement

/-- The statement up to the source and its keyword. -/
def selecting (c : Clauses) : String :=
  Phrases.text ("SELECT" :: Phrases.bare c.selection)

/-- The phrases behind the conditions. -/
def furtherPhrases (c : Clauses) : Phrases :=
  Phrases.listClause "GROUP BY" ", " c.groupBy ++ Phrases.listClause "ORDER BY" ", " c.orderBy ++
    Phrases.numberClause "LIMIT" c.limit ++ Phrases.numberClause "OFFSET" c.offset ++
    Phrases.numberClause "SLIMIT" c.seriesLimit ++
    Phrases.numberClause "SOFFSET" c.seriesOffset ++
    c.fill.toList.map fun f => "fill(" ++ f ++ ")"

/-- The statement behind the conditions. -/
def further (c : Clauses) : String :=
  Phrases.trailing c.furtherPhrases

theorem phrases_eq (c : Clauses) :
    c.phrases = "SELECT" :: (Phrases.bare c.selection ++ (Phrases.clause "FROM" (some c.source) ++
      (Phrases.listClause "WHERE" " " c.conditions ++ c.furtherPhrases))) := by
  unfold phrases furtherPhrases source
  simp only [List.append_assoc]

/-- The selection, the source, the conditions and the rest, each with text of its own. -/
theorem text_eq (c : Clauses) :
    c.text = c.selecting ++ (" FROM " ++ c.source) ++ whereSection c.conditions ++ c.further := by
  unfold text
  rw [phrases_eq, Phrases.text_append, Phrases.trailing_append, Phrases.trailing_append,
    Phrases.trailing_clause, trailing_where]
  simp only [String.append_assoc]
  rfl

end Clauses
end Select

/-! ### DELETE -/

namespace Delete

/-- The parts of a DELETE as they stand in the statement. -/
structure Clauses where
  measurement : String
  conditions : List String

/-- The parts of the DELETE as they stand in it, or the first failure among them. -/
def clauses (s : Delete Fragment) : Composed Clauses :=
  match s.measurement with
  | none => .error (.missingMeasurement .delete)
  | some measurement => do
    let measurement ← measurement.compile
    let conditions ← s.conditions.compile
    return ⟨measurement, conditions⟩

/-- The statement. -/
def Clauses.text (c : Clauses) : String :=
  Delete.text c.measurement c.conditions

/-- A DELETE composes to what its parts make up. -/
theorem compile_eq_clauses (s : Delete Fragment) :
    (Statement.delete s).compile = Clauses.text <$> s.clauses := by
  obtain ⟨measurement, conditions⟩ := s
  show Fragment.compileStatement (.delete _) = _
  unfold Fragment.compileStatement Fragment.compileDelete clauses
  cases measurement with
  | none => rfl
  | some measurement =>
      simp only [map_bind, map_pure]
      rfl

/-- The statement up to the conditions. -/
def Clauses.deleting (c : Clauses) : String :=
  Phrases.text ("DELETE FROM" :: Phrases.bare c.measurement)

/-- The measurement and the conditions, each with text of its own. -/
theorem Clauses.text_eq (c : Clauses) : c.text = c.deleting ++ whereSection c.conditions := by
  show Phrases.text ("DELETE FROM" :: (Phrases.bare c.measurement ++
    Phrases.listClause "WHERE" " " c.conditions)) = _
  rw [Phrases.text_append, trailing_where]
  rfl

end Delete

/-! ### SHOW TAG KEYS and SHOW FIELD KEYS -/

/-- A name that may be absent always composes. -/
theorem Fragment.compileOption_name (name : Option String) :
    compileOption (name.map Fragment.name) = .ok (name.map Identifier.text) := by
  cases name <;> rfl

/-- What is listed and the source, each with text of its own. -/
theorem showText_source (what : String) (database : Option String) (source : String) :
    showText what database (some source) =
      Phrases.text ("SHOW" :: (Phrases.bare what ++ Phrases.clause "ON" database)) ++
        (" FROM " ++ source) := by
  unfold showText
  rw [Phrases.text_append, Phrases.trailing_clause]
  rfl

/-- The keys of a measurement that is named always compose. -/
theorem KeysScope.compile_names (kind : KeyKind) (database policy : Option String)
    (measurement : String) :
    (Statement.showKeys kind ⟨database.map Fragment.name, some (.name measurement),
      policy.map Fragment.name⟩).compile =
        .ok (showText kind.keywords (database.map Identifier.text)
          (some (qualifiedName (policy.map Identifier.text) (Identifier.text measurement)))) := by
  show Fragment.compileKeys kind _ = _
  unfold Fragment.compileKeys
  rw [Fragment.compileOption_name, Fragment.compileOption_name]
  rfl

end SeriesQuery
