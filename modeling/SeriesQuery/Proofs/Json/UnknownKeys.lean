/-
Keys that are no fields, in a text.

A batch is read statement by statement, so a member that is added to one of them decides by itself
what becomes of the whole text.  Where the statement has a draft of its own the text is refused.
Where it has only fields beside its kind, the member is read and forgotten.
-/
import SeriesQuery.Proofs.Draft.UnknownKeys
import SeriesQuery.Proofs.Json.Batches

namespace SeriesQuery.Json

variable {before after : List (Quoted × Tree)} {key : Quoted} {value : Tree} {name : String}

theorem readMembers_append (depth : Nat) (before after : List (Quoted × Tree)) :
    readMembers depth (before ++ after) = do
      let ds ← readMembers depth before
      let ds' ← readMembers depth after
      return ds ++ ds' := by
  induction before with
  | nil =>
      rw [List.nil_append, readMembers]
      cases readMembers depth after <;> rfl
  | cons member before ih =>
      obtain ⟨key, value⟩ := member
      rw [List.cons_append, readMembers, readMembers, ih]
      cases key.read <;> cases value.read depth <;> cases readMembers depth before <;>
        cases readMembers depth after <;> rfl

theorem readMembers_insert (depth : Nat) (hkey : key.read = some name) :
    readMembers depth (before ++ (key, value) :: after) = do
      let ds ← readMembers depth before
      let d ← value.read depth
      let ds' ← readMembers depth after
      return ds ++ (name, d) :: ds' := by
  rw [readMembers_append, readMembers, hkey]
  cases readMembers depth before <;> cases value.read depth <;>
    cases readMembers depth after <;> rfl

/-- With a key too many a closed statement is refused; an open one is what it was, unless the
    value is nothing that can be read. -/
theorem draft?_insert {draft : StatementDraft}
    (h : draft? (.table (before ++ after)) = some draft) (hkey : key.read = some name)
    (hkind : name ≠ StatementDraft.kindKey) (hname : name ∉ draft.layout.fields) :
    draft? (.table (before ++ (key, value) :: after)) =
      if draft.layout.isClosed then none else (value.read (maxDepth - 3)).map fun _ => draft := by
  have hread (members : List (Quoted × Tree)) :
      draft? (.table members) =
        (readMembers (maxDepth - 3) members).map Document.table >>=
          StatementDraft.ofDocument? := rfl
  rw [hread, readMembers_append] at h
  rw [hread, readMembers_insert _ hkey]
  cases hbefore : readMembers (maxDepth - 3) before with
  | none =>
      rw [hbefore] at h
      cases h
  | some ds =>
      cases hafter : readMembers (maxDepth - 3) after with
      | none =>
          rw [hbefore, hafter] at h
          cases h
      | some ds' =>
          rw [hbefore, hafter] at h
          cases value.read (maxDepth - 3) with
          | none => cases draft.layout.isClosed <;> rfl
          | some d => exact StatementDraft.ofDocument?_insert h hkind hname

/-- One statement that is refused spoils the batch. -/
theorem mapM_draft?_eq_none {left right : List Tree} {statement : Tree}
    (h : draft? statement = none) : (left ++ statement :: right).mapM draft? = none := by
  rw [List.mapM_append, List.mapM_cons, h]
  cases left.mapM draft? <;> rfl

theorem mapM_draft?_congr {left right : List Tree} {statement statement' : Tree}
    (h : draft? statement' = draft? statement) :
    (left ++ statement' :: right).mapM draft? = (left ++ statement :: right).mapM draft? := by
  rw [List.mapM_append, List.mapM_cons, List.mapM_append, List.mapM_cons, h]

/--
**A key that is no field.**  Add a member to a statement somewhere in a batch, whose key is neither
the kind's nor that of a field.  If the statement has a draft of its own, the text is refused.  If
it has not, and the value can be read, the text gives what it gave without the member.  So a batch
is refused for the key just if the statement is closed or the value cannot be read.
-/
theorem unknown_key_refused_iff (form : BatchForm) (left right : List Tree)
    {before after : List (Quoted × Tree)} {key : Quoted} {value : Tree} {name text text' : String}
    {draft : StatementDraft}
    (htext : (form.tree (left ++ .table (before ++ after) :: right)).WrittenBy text)
    (htext' : (form.tree (left ++ .table (before ++ (key, value) :: after) :: right)).WrittenBy
      text')
    (hdraft : draft? (.table (before ++ after)) = some draft) (hkey : key.read = some name)
    (hkind : name ≠ StatementDraft.kindKey) (hname : name ∉ draft.layout.fields) :
    (draft.layout.isClosed = true → Batch.ofJson text' = .error .malformed) ∧
    (draft.layout.isClosed = false → value.read (maxDepth - 3) ≠ none →
      Batch.ofJson text' = Batch.ofJson text) ∧
    ∀ batch, Batch.ofJson text = .ok batch →
      (Batch.ofJson text' = .error .malformed ↔
        draft.layout.isClosed = true ∨ value.read (maxDepth - 3) = none) := by
  have hinsert : draft? (.table (before ++ (key, value) :: after)) =
      if draft.layout.isClosed then none else (value.read (maxDepth - 3)).map fun _ => draft :=
    draft?_insert hdraft hkey hkind hname
  have hrefused (h : draft.layout.isClosed = true ∨ value.read (maxDepth - 3) = none) :
      Batch.ofJson text' = .error .malformed := by
    have hnone : draft? (.table (before ++ (key, value) :: after)) = none := by
      rw [hinsert]
      rcases h with h | h
      · rw [if_pos h]
      · rw [h]
        exact ite_self none
    rw [ofJson_of_writtenBy htext', mapM_draft?_eq_none hnone]
  have hsame (hopen : draft.layout.isClosed = false) (hvalue : value.read (maxDepth - 3) ≠ none) :
      Batch.ofJson text' = Batch.ofJson text := by
    obtain ⟨d, hd⟩ := Option.ne_none_iff_exists'.mp hvalue
    have hdraft' : draft? (.table (before ++ (key, value) :: after)) =
        draft? (.table (before ++ after)) := by
      rw [hinsert, hdraft, hopen, hd]
      rfl
    rw [ofJson_of_writtenBy htext', ofJson_of_writtenBy htext, mapM_draft?_congr hdraft']
  refine ⟨fun hclosed => hrefused (.inl hclosed), hsame, fun batch hbatch => ⟨?_, hrefused⟩⟩
  intro herror
  by_contra h
  obtain ⟨hopen, hvalue⟩ := not_or.mp h
  rw [hsame (Bool.eq_false_iff.mpr hopen) hvalue, hbatch] at herror
  cases herror

/-- A misspelt measurement in SHOW TAG KEYS, which would show the keys of all measurements. -/
theorem unknown_key_refused_in_keys :
    let keys := "\x7b\"statement\":[\x7b\"kind\":\"show_tag_keys\"\x7d]\x7d"
    let misspelt := "\x7b\"statement\":[\x7b\"kind\":\"show_tag_keys\",\"form\":\"cpu\"\x7d]\x7d"
    Batch.ofJson keys = .ok ⟨[.showKeys .tag ⟨none, none, none⟩]⟩ ∧
      Batch.ofJson misspelt = .error .malformed := by
  intro keys misspelt
  let form : BatchForm := .plain
  let kind : Quoted × Tree :=
    (⟨"kind".toList, by decide⟩, .quoted ⟨"show_tag_keys".toList, by decide⟩)
  let key : Quoted := ⟨"form".toList, by decide⟩
  let value : Tree := .quoted ⟨"cpu".toList, by decide⟩
  have hkeys : (form.tree ([] ++ .table ([kind] ++ []) :: [])).WrittenBy keys :=
    Tree.writtenBy_compact _
  have hmisspelt : (form.tree ([] ++ .table ([kind] ++ (key, value) :: []) :: [])).WrittenBy
      misspelt := Tree.writtenBy_compact _
  have hdraft : draft? (.table ([kind] ++ [])) = some (.showKeys .tag ⟨none, none, none⟩) := rfl
  have hkey : key.read = some "form" := by decide
  obtain ⟨hrefused, -, -⟩ := unknown_key_refused_iff form [] [] hkeys hmisspelt hdraft hkey
    (by decide) (by decide)
  refine ⟨?_, hrefused rfl⟩
  rw [ofJson_of_writtenBy hkeys]
  rfl

/-- Statements that have only fields beside their kind let a misspelt key pass.  So a policy is
    dropped from the database in the settings instead of the one that was meant. -/
theorem misspelt_database_accepted :
    let statement := "\"kind\":\"drop_retention_policy\",\"name\":\"week\""
    let plain := "\x7b\"statement\":[\x7b" ++ statement ++ "\x7d]\x7d"
    let misspelt := "\x7b\"statement\":[\x7b" ++ statement ++ ",\"databse\":\"own\"\x7d]\x7d"
    let draft : StatementDraft := .dropRetentionPolicy "week" none
    "databse" ≠ StatementDraft.kindKey ∧ "databse" ∉ draft.layout.fields ∧
      Batch.ofJson plain = .ok ⟨[draft]⟩ ∧ Batch.ofJson misspelt = .ok ⟨[draft]⟩ ∧
      draft.compile ⟨some "telegraf", none, .text⟩ =
        .ok "DROP RETENTION POLICY \"week\" ON \"telegraf\"" := by
  intro statement plain misspelt draft
  let form : BatchForm := .plain
  let kind : Quoted × Tree :=
    (⟨"kind".toList, by decide⟩, .quoted ⟨"drop_retention_policy".toList, by decide⟩)
  let name : Quoted × Tree := (⟨"name".toList, by decide⟩, .quoted ⟨"week".toList, by decide⟩)
  let extra : Quoted × Tree := (⟨"databse".toList, by decide⟩, .quoted ⟨"own".toList, by decide⟩)
  have hplain : (form.tree [.table [kind, name]]).WrittenBy plain :=
    Tree.writtenBy_compact _
  have hmisspelt : (form.tree [.table [kind, name, extra]]).WrittenBy misspelt :=
    Tree.writtenBy_compact _
  refine ⟨by decide, by decide, ?_, ?_, rfl⟩
  · rw [ofJson_of_writtenBy hplain]
    rfl
  · rw [ofJson_of_writtenBy hmisspelt]
    rfl

end SeriesQuery.Json
