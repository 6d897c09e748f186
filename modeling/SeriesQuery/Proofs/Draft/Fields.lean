/-
Terms of statement files.

What a term becomes shows where it is selected.  A tree may be read as a term that composes to a
text; calls compose their arguments one by one, so what an argument becomes shows in the call, at
any depth.  In a JSON file a SELECT of such trees composes to their texts and the measurement,
whatever the settings are.
-/
import SeriesQuery.Proofs.Draft.OneCondition
import SeriesQuery.Proofs.Draft.TermText
import SeriesQuery.Proofs.Statement.Rendering

namespace SeriesQuery

/-! ### The statement -/

/-- The SELECT of fields, as they stand in it, from a measurement. -/
def Select.fieldsText (policy : Option String) (measurement : String) (fields : List String) :
    String :=
  "SELECT " ++ ", ".intercalate fields ++ " FROM " ++
    qualifiedName (policy.map Identifier.text) (Identifier.text measurement)

theorem Select.compile_fields (policy : Option String) (measurement : String) {fs : List Fragment}
    {ts : List String} (hts : Fragment.compileAll fs = .ok ts) (hne : ∃ t ∈ ts, t ≠ "") :
    (Statement.select { ofFields fs with
        measurement := some (.name measurement)
        retentionPolicy := policy.map Fragment.name }).compile =
      .ok (fieldsText policy measurement ts) := by
  have hclauses : clauses { ofFields fs with
      measurement := some (.name measurement)
      retentionPolicy := policy.map Fragment.name } =
        .ok ⟨ts, Identifier.text measurement, policy.map Identifier.text, [], [], [], none, none,
          none, none, none⟩ := by
    have hname : (Fragment.name measurement).compile = .ok (Identifier.text measurement) := rfl
    unfold clauses
    simp only [ofFields, hname, Fragment.compileOption_name, hts, Composed.ok_bind]
    rfl
  obtain ⟨t, ht, hne⟩ := hne
  have hfields : ts ≠ [""] := by
    rintro rfl
    exact hne (List.mem_singleton.mp ht)
  have hselection : ts.isEmpty = false := by
    cases ts with
    | nil => cases ht
    | cons => rfl
  rw [compile_eq_clauses, hclauses, Composed.map_ok, Clauses.text_eq_append hfields]
  refine congrArg Except.ok ?_
  show "SELECT " ++ Clauses.selection _ ++ " FROM " ++ _ ++ "" = _
  unfold Clauses.selection
  rw [hselection, String.append_empty]
  rfl

theorem Fragment.callText_ne_empty (function : String) (args : List String)
    (aliasName : Option String) : callText function args aliasName ≠ "" := by
  intro hempty
  have hlist := congrArg String.toList hempty
  simp [callText] at hlist

namespace TermDraft

/-- A SELECT of terms composes as they do. -/
theorem compile_select {drafts : List TermDraft} {fs : List Fragment} {ts : List String}
    (settings : Settings) (measurement : String) (hfs : fragments drafts = .ok fs)
    (hts : Fragment.compileAll fs = .ok ts) (hne : ∃ t ∈ ts, t ≠ "") :
    (StatementDraft.select { SelectDraft.everything measurement [] with
        fields := drafts }).compile settings =
      .ok (Select.fieldsText settings.retentionPolicy measurement ts) := by
  have hbuild : SelectDraft.build { SelectDraft.everything measurement [] with
      fields := drafts } settings = .ok { Select.ofFields fs with
        measurement := some (.name measurement)
        retentionPolicy := settings.retentionPolicy.map Fragment.name } := by
    unfold SelectDraft.build SelectDraft.everything
    rw [hfs]
    rfl
  rw [StatementDraft.compile_select, hbuild, Composed.ok_bind,
    Select.compile_fields settings.retentionPolicy measurement hts hne]

end TermDraft

/-! ### Files -/

namespace Json

variable {depth : Nat} {trees : List Tree} {ts : List String}

/-- With so much depth left, the tree is read as a term that composes to the text. -/
def IsTerm (depth : Nat) (tree : Tree) (t : String) : Prop :=
  ∃ d draft, tree.read depth = some d ∧ TermDraft.ofDocument? d = some draft ∧ draft.text = .ok t

/-- Terms are read and composed one by one. -/
theorem exists_terms (h : List.Forall₂ (IsTerm depth) trees ts) :
    ∃ ds drafts fs, readItems depth trees = some ds ∧ TermDraft.allOf? ds = some drafts ∧
      TermDraft.fragments drafts = .ok fs ∧ Fragment.compileAll fs = .ok ts := by
  induction h with
  | nil => exact ⟨[], [], [], rfl, rfl, rfl, rfl⟩
  | @cons tree t trees ts hterm _ ih =>
      obtain ⟨d, draft, hd, hdraft, htext⟩ := hterm
      obtain ⟨f, hf, ht⟩ := Composed.bind_eq_ok_iff.mp htext
      obtain ⟨ds, drafts, fs, hds, hdrafts, hfs, hts⟩ := ih
      refine ⟨d :: ds, draft :: drafts, f :: fs, ?_, ?_, ?_, ?_⟩
      · rw [readItems, hd, hds]
        rfl
      · rw [TermDraft.allOf?, hdraft, hdrafts]
        rfl
      · rw [TermDraft.fragments, hf, hfs]
        rfl
      · rw [Fragment.compileAll, ht, hts]
        rfl

/-- A name composes to itself as it is written. -/
theorem isTerm_textTree (s : String) : IsTerm depth (textTree s) (Identifier.text s) :=
  ⟨_, _, read_textTree depth s, rfl, rfl⟩

/-- The tree of a call. -/
def callTree (function : String) (args : List Tree) (aliasName : Option String) : Tree :=
  tableTree (("function", textTree function) :: ("args", .list args) ::
    aliasName.toList.map fun name => ("alias", textTree name))

/-- What the tree of a call is read as. -/
def callMembers (function : String) (args : List Document) (aliasName : Option String) :
    List (String × Document) :=
  ("function", .text function) :: ("args", .list args) ::
    aliasName.toList.map fun name => ("alias", .text name)

theorem read_callTree {ds : List Document} (hds : readItems depth trees = some ds)
    (function : String) (aliasName : Option String) :
    (callTree function trees aliasName).read (depth + 2) =
      some (.table (callMembers function ds aliasName)) := by
  unfold callTree tableTree
  cases aliasName with
  | none =>
      simp only [Option.toList_none, List.map_cons, List.map_nil, Tree.read, readMembers,
        read_quotedOf, read_textTree, hds]
      rfl
  | some name =>
      simp only [Option.toList_some, List.map_cons, List.map_nil, Tree.read, readMembers,
        read_quotedOf, read_textTree, hds]
      rfl

theorem ofDocument?_callMembers {ds : List Document} {drafts : List TermDraft}
    (hdrafts : TermDraft.allOf? ds = some drafts) (function : String) (aliasName : Option String) :
    TermDraft.ofDocument? (.table (callMembers function ds aliasName)) =
      some (.call function drafts aliasName) := by
  have hargs : TermDraft.argsOf? (callMembers function ds aliasName) = some [drafts] := by
    cases aliasName with
    | none =>
        unfold callMembers
        simp only [Option.toList_none, List.map_nil, TermDraft.argsOf?, TermDraft.listOf?, hdrafts]
        rfl
    | some name =>
        unfold callMembers
        simp only [Option.toList_some, List.map_cons, List.map_nil, TermDraft.argsOf?,
          TermDraft.listOf?, hdrafts]
        rfl
  have hcall : TermDraft.call? (.keyed (callMembers function ds aliasName)) (some [drafts]) =
      some (.call function drafts aliasName) := by
    cases aliasName <;> rfl
  rw [TermDraft.ofDocument?, hargs, hcall]
  rfl

/-- A call composes its arguments. -/
theorem isTerm_call (function : String) (aliasName : Option String)
    (h : List.Forall₂ (IsTerm depth) trees ts) :
    IsTerm (depth + 2) (callTree function trees aliasName)
      (Fragment.callText (Text.upperCase function) ts (aliasName.map Identifier.text)) := by
  obtain ⟨ds, drafts, fs, hds, hdrafts, hfs, hts⟩ := exists_terms h
  have htext : (TermDraft.call function drafts aliasName).text =
      .ok (Fragment.callText (Text.upperCase function) ts (aliasName.map Identifier.text)) := by
    unfold TermDraft.text
    rw [TermDraft.fragment, hfs]
    show Fragment.compile _ = _
    rw [Fragment.compile, hts, Fragment.compileOption_name]
    rfl
  exact ⟨_, _, read_callTree hds function aliasName,
    ofDocument?_callMembers hdrafts function aliasName, htext⟩

/-- The tree of a SELECT of fields. -/
def fieldsTree (measurement : String) (fields : List Tree) : Tree :=
  tableTree [("kind", textTree "select"), ("fields", .list fields), ("from", textTree measurement)]

/-- A SELECT of a file composes as its fields do. -/
theorem compile_fieldsTree (h : List.Forall₂ (IsTerm (maxDepth - 4)) trees ts)
    (hne : ∃ t ∈ ts, t ≠ "") (form : BatchForm) (settings : Settings) (measurement : String)
    {text : String} (htext : (form.tree [fieldsTree measurement trees]).WrittenBy text) :
    Batch.ofJson text >>= Batch.compile settings =
      .ok [Select.fieldsText settings.retentionPolicy measurement ts] := by
  obtain ⟨ds, drafts, fs, hds, hdrafts, hfs, hts⟩ := exists_terms h
  have hread : (fieldsTree measurement trees).read (maxDepth - 4 + 2) = some (.table
      [("kind", .text "select"), ("fields", .list ds), ("from", .text measurement)]) := by
    unfold fieldsTree tableTree
    simp only [List.map_cons, List.map_nil, Tree.read, readMembers, read_quotedOf, read_textTree,
      hds]
    rfl
  have hselect : SelectDraft.ofRecord?
      (.keyed [("fields", .list ds), ("from", .text measurement)]) =
        (TermDraft.allOf? ds).bind fun drafts =>
          some { SelectDraft.everything measurement [] with fields := drafts } := rfl
  have hstatement : draft? (fieldsTree measurement trees) =
      some (.select { SelectDraft.everything measurement [] with fields := drafts }) := by
    unfold draft?
    rw [show maxDepth - 2 = maxDepth - 4 + 2 from rfl, hread]
    rw [hdrafts] at hselect
    exact congrArg (StatementDraft.select <$> ·) hselect
  have hstatements : [fieldsTree measurement trees].mapM draft? =
      some [.select { SelectDraft.everything measurement [] with fields := drafts }] := by
    rw [List.mapM_cons, List.mapM_nil, hstatement]
    rfl
  rw [ofJson_of_writtenBy htext, hstatements]
  show List.mapM (StatementDraft.compile settings) [_] = _
  rw [List.mapM_cons, List.mapM_nil, TermDraft.compile_select settings measurement hfs hts hne]
  rfl

/-- What the tree is written as among the fields of a SELECT, in any file. -/
def IsField (tree : Tree) (t : String) : Prop :=
  ∀ (form : BatchForm) (settings : Settings) (measurement : String) (before after : List Tree)
    (ts us : List String) (text : String),
    List.Forall₂ (IsTerm (maxDepth - 4)) before ts →
    List.Forall₂ (IsTerm (maxDepth - 4)) after us →
    (form.tree [fieldsTree measurement (before ++ tree :: after)]).WrittenBy text →
    Batch.ofJson text >>= Batch.compile settings =
      .ok [Select.fieldsText settings.retentionPolicy measurement (ts ++ t :: us)]

/-- **A term of a file is written among the fields as it composes.** -/
theorem isField_of_isTerm {tree : Tree} {t : String} (h : IsTerm (maxDepth - 4) tree t)
    (hne : t ≠ "") : IsField tree t := by
  intro form settings measurement before after ts us text hbefore hafter htext
  exact compile_fieldsTree (List.rel_append hbefore (.cons h hafter))
    ⟨t, List.mem_append_right ts List.mem_cons_self, hne⟩ form settings measurement htext

/-- What the tree is written as among the arguments of a call that is a field. -/
def IsArgument (tree : Tree) (t : String) : Prop :=
  ∀ (function : String) (aliasName : Option String) (before after : List Tree)
    (ts us : List String), List.Forall₂ (IsTerm (maxDepth - 6)) before ts →
    List.Forall₂ (IsTerm (maxDepth - 6)) after us →
    IsField (callTree function (before ++ tree :: after) aliasName)
      (Fragment.callText (Text.upperCase function) (ts ++ t :: us) (aliasName.map Identifier.text))

theorem isArgument_of_isTerm {tree : Tree} {t : String} (h : IsTerm (maxDepth - 6) tree t) :
    IsArgument tree t := by
  intro function aliasName before after ts us hbefore hafter
  have hcall := isTerm_call function aliasName (List.rel_append hbefore (.cons h hafter))
  exact isField_of_isTerm hcall (Fragment.callText_ne_empty _ _ _)

/-- No tree is written in two ways. -/
theorem IsField.unique {tree : Tree} {t t' : String} (h : IsField tree t) (h' : IsField tree t') :
    t = t' := by
  have htext := Tree.writtenBy_compact (BatchForm.placed.tree [fieldsTree "m" [tree]])
  have hsame := (h .placed Settings.empty "m" [] [] [] [] _ .nil .nil htext).symm.trans
    (h' .placed Settings.empty "m" [] [] [] [] _ .nil .nil htext)
  simpa [Select.fieldsText] using hsame

end Json

end SeriesQuery
