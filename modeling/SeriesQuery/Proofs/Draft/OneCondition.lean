/-
Statement files with one value.

What a value becomes shows in the condition that compares with it.  The statements here select
everything from a measurement or delete from it, under one condition with one place.  In a JSON file
or in a TOML file, and whatever the settings are, such a statement composes to its measurement and
the condition with the literal of the value in its place, or the file fails as the value does.
-/
import SeriesQuery.Proofs.Condition.Places
import SeriesQuery.Proofs.Draft.ConfiguredPolicy
import SeriesQuery.Proofs.Draft.Conditions
import SeriesQuery.Proofs.Json.Batches
import SeriesQuery.Proofs.Json.Printing
import SeriesQuery.Proofs.Toml.Lines

namespace SeriesQuery

/-! ### Statements -/

namespace MeasurementStatement

/-- The kind of the statement in a file. -/
def kind : MeasurementStatement → String
  | select => "select"
  | delete => "delete"

/-- The draft of the statement about everything under conditions. -/
def draft (measurement : String) (conditions : List ConditionDraft) :
    MeasurementStatement → StatementDraft
  | select => .select (.everything measurement conditions)
  | delete => .delete ⟨some measurement, conditions⟩

/-- The text of the statement up to its conditions.  A DELETE has no retention policy. -/
def opening (settings : Settings) (measurement : String) : MeasurementStatement → String
  | select => "SELECT * FROM " ++
      qualifiedName (settings.retentionPolicy.map Identifier.text) (Identifier.text measurement)
  | delete => "DELETE FROM " ++ Identifier.text measurement

theorem compile_draft (s : MeasurementStatement) (measurement : String)
    (conditions : List ConditionDraft) (settings : Settings) :
    (s.draft measurement conditions).compile settings =
      (s.opening settings measurement ++ ·) <$> ConditionDraft.sectionOf conditions := by
  cases s with
  | select => exact StatementDraft.compile_everything_qualified measurement conditions settings
  | delete => exact StatementDraft.compile_delete measurement conditions settings

end MeasurementStatement

namespace ConditionDraft

/-- The section of one condition. -/
theorem sectionOf_single (c : ConditionDraft) : sectionOf [c] = (" WHERE " ++ ·) <$> c.text := by
  have hclause : clause [c] = WhereClause.only <$> c.condition := by
    rw [clause_eq, List.mapM_cons, List.mapM_nil]
    unfold joined
    cases c.condition <;> rfl
  have hcompile (condition : Condition) :
      whereSection <$> (WhereClause.only condition).compile =
        (" WHERE " ++ ·) <$> condition.compile := by
    show whereSection <$> [WhereClause.Term.condition condition].mapM WhereClause.Term.compile = _
    rw [List.mapM_cons, List.mapM_nil]
    show whereSection <$> (condition.compile >>= fun t => pure [t]) = _
    cases condition.compile <;> rfl
  unfold sectionOf text
  rw [hclause]
  cases c.condition with
  | error e => rfl
  | ok condition => exact hcompile condition

/-- The literal of its value stands in the place of the condition. -/
theorem text_of_place {before behind : String} (hbefore : '?' ∉ before.toList)
    (hbehind : '?' ∉ behind.toList) (v : ValueDraft) (k : Conjunction) :
    text ⟨before ++ "?" ++ behind, [v], k⟩ =
      (fun value => before ++ value.literal ++ behind) <$> v.value := by
  have hcondition : condition ⟨before ++ "?" ++ behind, [v], k⟩ =
      (fun value => Condition.ofPieces before [behind] [value]) <$> v.value := by
    have htext : before ++ "?" ++ behind = "?".intercalate [before, behind] := rfl
    unfold condition
    rw [List.mapM_cons, List.mapM_nil, htext]
    cases v.value <;> rfl
  unfold text
  rw [hcondition]
  cases v.value with
  | error e => rfl
  | ok value =>
      have hpieces := @Condition.compile_ofPieces before [behind]
        (by simp [hbefore, hbehind, Condition.placeholder]) [value] rfl
      refine hpieces.trans (congrArg Except.ok ?_)
      apply String.toList_inj.mp
      simp

end ConditionDraft

/-- The members of the statement under one condition with one value. -/
def oneCondition (s : MeasurementStatement) (measurement expression : String) (value : Document) :
    List (String × Document) :=
  [("kind", .text s.kind), ("from", .text measurement),
    ("where", .list [.table [("expr", .text expression), ("values", .list [value])]])]

theorem ofDocument?_condition (expression : String) {value : Document} {v : ValueDraft}
    (hv : ValueDraft.ofDocument? value = some v) :
    ConditionDraft.ofDocument?
      (.table [("expr", .text expression), ("values", .list [value])]) =
        some ⟨expression, [v], .and⟩ := by
  have hread : ConditionDraft.ofDocument?
      (.table [("expr", .text expression), ("values", .list [value])]) =
        (Document.listOf? ValueDraft.ofDocument? (.list [value])).bind fun values =>
          some (ConditionDraft.mk expression values .and) := rfl
  have hvalues : Document.listOf? ValueDraft.ofDocument? (.list [value]) = some [v] := by
    show [value].mapM ValueDraft.ofDocument? = some [v]
    rw [List.mapM_cons, hv]
    rfl
  rw [hread, hvalues]
  rfl

/-- A table with a measurement and conditions is read as its conditions are. -/
theorem ofDocument?_conditions (s : MeasurementStatement) (measurement : String)
    (conditions : Document) :
    StatementDraft.ofDocument? (.table
      [("kind", .text s.kind), ("from", .text measurement), ("where", conditions)]) =
        s.draft measurement <$> Document.listOf? ConditionDraft.ofDocument? conditions := by
  cases s with
  | select =>
      have hread : SelectDraft.ofRecord?
          (.keyed [("from", .text measurement), ("where", conditions)]) =
            (Document.listOf? ConditionDraft.ofDocument? conditions).bind fun cs =>
              some (.everything measurement cs) := rfl
      refine (congrArg (StatementDraft.select <$> ·) hread).trans ?_
      cases Document.listOf? ConditionDraft.ofDocument? conditions <;> rfl
  | delete =>
      have hread : DeleteDraft.ofRecord?
          (.keyed [("from", .text measurement), ("where", conditions)]) =
            (Document.listOf? ConditionDraft.ofDocument? conditions).bind fun cs =>
              some ⟨some measurement, cs⟩ := rfl
      refine (congrArg (StatementDraft.delete <$> ·) hread).trans ?_
      cases Document.listOf? ConditionDraft.ofDocument? conditions <;> rfl

theorem ofDocument?_oneCondition (s : MeasurementStatement) (measurement expression : String)
    {value : Document} {v : ValueDraft} (hv : ValueDraft.ofDocument? value = some v) :
    StatementDraft.ofDocument? (.table (oneCondition s measurement expression value)) =
      some (s.draft measurement [⟨expression, [v], .and⟩]) := by
  unfold oneCondition
  rw [ofDocument?_conditions]
  show s.draft measurement <$> List.mapM ConditionDraft.ofDocument? [_] = _
  rw [List.mapM_cons, ofDocument?_condition expression hv]
  rfl

/-! ### Files -/

/-- What the statement composes to: the measurement, and the condition with a literal in its
    place. -/
def textWith (s : MeasurementStatement) (settings : Settings)
    (measurement before behind literal : String) : String :=
  s.opening settings measurement ++ " WHERE " ++ before ++ literal ++ behind

/-- A batch of one such statement composes as its value does. -/
theorem compile_oneCondition (s : MeasurementStatement) (settings : Settings) (measurement : String)
    {before behind : String} (hbefore : '?' ∉ before.toList) (hbehind : '?' ∉ behind.toList)
    (v : ValueDraft) :
    Batch.compile settings ⟨[s.draft measurement [⟨before ++ "?" ++ behind, [v], .and⟩]]⟩ =
      (fun value => [textWith s settings measurement before behind value.literal]) <$> v.value := by
  show List.mapM (StatementDraft.compile settings) [_] = _
  rw [List.mapM_cons, List.mapM_nil, s.compile_draft, ConditionDraft.sectionOf_single,
    ConditionDraft.text_of_place hbefore hbehind]
  cases v.value with
  | error e => rfl
  | ok value =>
      refine congrArg (fun t => Except.ok [t]) ?_
      unfold textWith
      simp only [String.append_assoc]

namespace Json

/-- The tree of a text, as it is printed. -/
def textTree (s : String) : Tree :=
  .quoted (quotedOf s)

/-- The tree of a table, its keys as they are printed. -/
def tableTree (members : List (String × Tree)) : Tree :=
  .table (members.map fun m => (quotedOf m.1, m.2))

/-- The statement under one condition with one value. -/
def oneConditionTree (s : MeasurementStatement) (measurement expression : String) (value : Tree) :
    Tree :=
  tableTree [("kind", textTree s.kind), ("from", textTree measurement),
    ("where", .list [tableTree [("expr", textTree expression), ("values", .list [value])]])]

theorem read_textTree (depth : Nat) (s : String) : (textTree s).read depth = some (.text s) := by
  unfold textTree
  cases depth <;> rw [Tree.read, read_quotedOf] <;> rfl

theorem read_oneConditionTree (s : MeasurementStatement) (measurement expression : String)
    {value : Tree} {d : Document} {depth : Nat} (h : value.read depth = some d) :
    (oneConditionTree s measurement expression value).read (depth + 4) =
      some (.table (oneCondition s measurement expression d)) := by
  unfold oneConditionTree tableTree
  simp only [List.map_cons, List.map_nil, Tree.read, readMembers, readItems, read_quotedOf,
    read_textTree, h]
  rfl

/-- What JSON files compose to that have the value in the place of their only condition. -/
def ComposesTo (value : Tree) (composed : Composed String) : Prop :=
  ∀ (form : BatchForm) (s : MeasurementStatement) (settings : Settings)
    (measurement before behind text : String), '?' ∉ before.toList → '?' ∉ behind.toList →
    (form.tree [oneConditionTree s measurement (before ++ "?" ++ behind) value]).WrittenBy text →
    Batch.ofJson text >>= Batch.compile settings =
      (fun literal => [textWith s settings measurement before behind literal]) <$> composed

/-- **JSON files compose as the value in them does.** -/
theorem composesTo_of_read {value : Tree} {d : Document} {v : ValueDraft}
    (hread : value.read (maxDepth - 6) = some d) (hv : ValueDraft.ofDocument? d = some v) :
    ComposesTo value (Value.literal <$> v.value) := by
  intro form s settings measurement before behind text hbefore hbehind htext
  have hstatement : draft? (oneConditionTree s measurement (before ++ "?" ++ behind) value) =
      some (s.draft measurement [⟨before ++ "?" ++ behind, [v], .and⟩]) := by
    unfold draft?
    rw [show maxDepth - 2 = maxDepth - 6 + 4 from rfl, read_oneConditionTree s _ _ hread]
    exact ofDocument?_oneCondition s _ _ hv
  have hdrafts : [oneConditionTree s measurement (before ++ "?" ++ behind) value].mapM draft? =
      some [s.draft measurement [⟨before ++ "?" ++ behind, [v], .and⟩]] := by
    rw [List.mapM_cons, List.mapM_nil, hstatement]
    rfl
  rw [ofJson_of_writtenBy htext, hdrafts]
  refine (compile_oneCondition s settings measurement hbefore hbehind v).trans ?_
  cases v.value <;> rfl

end Json

namespace Toml

/-- The usual layout of the statement, from what its texts and its value are written with. -/
def oneConditionText (s : MeasurementStatement) (measurement expression value : List Char) :
    List Char :=
  "[[statement]]\n".toList ++ (memberText "kind" ('"' :: (s.kind.toList ++ ['"'])) ++ ['\n'] ++
    (memberText "from" ('"' :: (measurement ++ ['"'])) ++ ['\n'] ++
    (memberText "where" ('[' :: ('\x7b' :: (memberText "expr" ('"' :: (expression ++ ['"'])) ++
      ',' :: memberText "values" ('[' :: (value ++ [']'])) ++ ['\x7d']) ++ [']'])) ++ ['\n'])))

theorem writesStatements_oneConditionText (s : MeasurementStatement)
    {measurement expression : String} {measurement' expression' value : List Char} {d : Document}
    (hmeasurement : WritesBasic measurement.toList measurement')
    (hexpression : WritesBasic expression.toList expression')
    (hvalue : Writes (maxDepth - 3) d value) :
    WritesStatements [oneCondition s measurement expression d]
      (String.ofList (oneConditionText s measurement' expression' value)) := by
  have htext {t : String} {written : List Char} (h : WritesBasic t.toList written) :
      WritesScalar (.text t) ('"' :: (written ++ ['"'])) := by
    have := WritesScalar.text h
    rwa [String.ofList_toList] at this
  have hkind : WritesBasic s.kind.toList s.kind.toList :=
    writesBasic_verbatim (by cases s <;> decide)
  have hvalues : Writes (maxDepth - 2) (.list [d]) ('[' :: (value ++ [']'])) :=
    .list (.single (.of hvalue))
  have hcondition : Writes (maxDepth - 1)
      (.table [("expr", .text expression), ("values", .list [d])]) _ :=
    .table (.cons (member_memberText (by decide) ((htext hexpression).writes _))
      (.single (member_memberText (by decide) hvalues)))
      (by decide : ["expr", "values"].Nodup)
  have hwhere : Writes maxDepth
      (.list [.table [("expr", .text expression), ("values", .list [d])]]) _ :=
    .list (.single (.of hcondition))
  have hheader : WritesLine (.header statementHeader) "[[statement]]\n".toList :=
    @WritesLine.element "statement" [] [] [] [] (by decide) blanks_nil blanks_nil blanks_nil
      blanks_nil
  refine ⟨⟨linesOf [oneCondition s measurement expression d], ?_, rfl⟩, ?_⟩
  · rw [String.toList_ofList]
    exact .cons hheader
      (.cons (.member (by decide : IsBare "kind") ((htext hkind).writes _))
        (.cons (.member (by decide : IsBare "from") ((htext hmeasurement).writes _))
          (.single (.member (by decide : IsBare "where") hwhere))))
  · intro members hmembers
    rw [List.mem_singleton.mp hmembers]
    exact (by decide : ["kind", "from", "where"].Nodup)

/-- What TOML files compose to that have the value in the place of their only condition. -/
def ComposesTo (value : Document) (composed : Composed String) : Prop :=
  ∀ (s : MeasurementStatement) (settings : Settings) (measurement before behind text : String),
    '?' ∉ before.toList → '?' ∉ behind.toList →
    WritesStatements [oneCondition s measurement (before ++ "?" ++ behind) value] text →
    Batch.ofToml text >>= Batch.compile settings =
      (fun literal => [textWith s settings measurement before behind literal]) <$> composed

theorem ofToml_oneCondition {s : MeasurementStatement} {measurement expression : String}
    {d : Document} {v : ValueDraft} (hv : ValueDraft.ofDocument? d = some v) {text : String}
    (htext : WritesStatements [oneCondition s measurement expression d] text) :
    Batch.ofToml text = .ok ⟨[s.draft measurement [⟨expression, [v], .and⟩]]⟩ := by
  rw [ofToml_of_writesStatements htext, List.mapM_cons, List.mapM_nil,
    ofDocument?_oneCondition s _ _ hv]
  rfl

/-- **TOML files compose as the value in them does.** -/
theorem composesTo_of_draft {d : Document} {v : ValueDraft}
    (hv : ValueDraft.ofDocument? d = some v) : ComposesTo d (Value.literal <$> v.value) := by
  intro s settings measurement before behind text hbefore hbehind htext
  rw [ofToml_oneCondition hv htext]
  refine (compile_oneCondition s settings measurement hbefore hbehind v).trans ?_
  cases v.value <;> rfl

end Toml

end SeriesQuery
