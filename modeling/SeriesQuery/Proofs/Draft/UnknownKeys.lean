/-
Keys that are no fields.

A record is closed or open.  A table that is read as a closed record may have no key but those of
its fields, so one key too many is enough to refuse it.  An open record asks its table for the
fields one by one and never looks at the rest, so there a key too many makes no difference.

Of the statements, those whose table is read as a draft of its own (SELECT, DELETE, the keys to
show, a retention policy to create or to alter) have a closed record.  The others, which have two
fields at most, have an open one: the statements about one object, DROP RETENTION POLICY, the
listings and SHOW DATABASES.
-/
import SeriesQuery.Draft.Batch

namespace SeriesQuery

section Insert

variable {before after : List (String × Document)} {name : String} {d : Document}

/-! ### Records -/

/-- A member that is not asked for is not among those that are. -/
theorem filter_keys_insert {p : String → Bool} (hname : p name = false) :
    (before ++ (name, d) :: after).filter (fun (key, _) => p key) =
      (before ++ after).filter fun (key, _) => p key := by
  rw [List.filter_append, List.filter_append, List.filter_cons_of_neg (by simp [hname])]

namespace Layout

variable {l : Layout}

/-- A closed record does not fit a table with a key that is no field. -/
theorem fits_insert_of_isClosed (hclosed : l.isClosed = true) (hname : name ∉ l.fields) :
    l.fits (.keyed (before ++ (name, d) :: after)) = false := by
  simp [fits, hclosed, hname]

theorem map_of_not_fits {α β : Type} {r : Record} {o : Option α} {f : α → β}
    (h : l.fits r = false) : (f <$> if l.fits r then o else none) = none := by
  rw [h]
  rfl

theorem fits_of_isOpen (hopen : l.isClosed = false) (members : List (String × Document)) :
    l.fits (.keyed members) = true := by
  simp [fits, hopen]

/-- What a table says about a field does not depend on other keys. -/
theorem slot?_insert {field : String} (hname : name ≠ field) :
    l.slot? (.keyed (before ++ (name, d) :: after)) field =
      l.slot? (.keyed (before ++ after)) field := by
  unfold slot?
  dsimp only
  rw [filter_keys_insert (p := (· == field)) (beq_false_of_ne hname)]

end Layout

/-! ### Statements -/

namespace StatementDraft

/-- The fields that the table of such a statement can have beside its kind. -/
def layout : StatementDraft → Layout
  | select _ => SelectDraft.layout
  | delete _ => DeleteDraft.layout
  | object _ _ => ⟨["name"], false⟩
  | retentionPolicy _ _ => RetentionPolicyDraft.layout
  | dropRetentionPolicy _ _ => ⟨["name", "database"], false⟩
  | list _ _ => ⟨["database"], false⟩
  | showDatabases => ⟨[], false⟩
  | showKeys _ _ => KeysDraft.layout

theorem object?_insert (hname : name ≠ "name") (action : ObjectAction) :
    object? action (.keyed (before ++ (name, d) :: after)) =
      object? action (.keyed (before ++ after)) := by
  unfold object?
  dsimp only
  rw [Layout.fits_of_isOpen rfl, Layout.fits_of_isOpen rfl, Layout.slot?_insert hname]

theorem dropRetentionPolicy?_insert (hname : name ≠ "name") (hdatabase : name ≠ "database") :
    dropRetentionPolicy? (.keyed (before ++ (name, d) :: after)) =
      dropRetentionPolicy? (.keyed (before ++ after)) := by
  unfold dropRetentionPolicy?
  dsimp only
  rw [Layout.fits_of_isOpen rfl, Layout.fits_of_isOpen rfl, Layout.slot?_insert hname,
    Layout.slot?_insert hdatabase]

theorem list?_insert (hdatabase : name ≠ "database") (what : Listing) :
    list? what (.keyed (before ++ (name, d) :: after)) =
      list? what (.keyed (before ++ after)) := by
  unfold list?
  dsimp only
  rw [Layout.fits_of_isOpen rfl, Layout.fits_of_isOpen rfl, Layout.slot?_insert hdatabase]

theorem exists_of_object? {action : ObjectAction} {r : Record} {draft : StatementDraft}
    (h : object? action r = some draft) : ∃ name, draft = object action name := by
  unfold object? at h
  dsimp only at h
  split at h
  · obtain ⟨slot, -, h⟩ := Option.bind_eq_some_iff.mp h
    obtain ⟨name, -, h⟩ := Option.bind_eq_some_iff.mp h
    cases h
    exact ⟨name, rfl⟩
  · cases h

theorem exists_of_dropRetentionPolicy? {r : Record} {draft : StatementDraft}
    (h : dropRetentionPolicy? r = some draft) :
    ∃ name database, draft = dropRetentionPolicy name database := by
  unfold dropRetentionPolicy? at h
  dsimp only at h
  split at h
  · obtain ⟨slot, -, h⟩ := Option.bind_eq_some_iff.mp h
    obtain ⟨name, -, h⟩ := Option.bind_eq_some_iff.mp h
    obtain ⟨slot', -, h⟩ := Option.bind_eq_some_iff.mp h
    obtain ⟨database, -, h⟩ := Option.bind_eq_some_iff.mp h
    cases h
    exact ⟨name, database, rfl⟩
  · cases h

theorem exists_of_list? {what : Listing} {r : Record} {draft : StatementDraft}
    (h : list? what r = some draft) : ∃ database, draft = list what database := by
  unfold list? at h
  dsimp only at h
  split at h
  · obtain ⟨slot, -, h⟩ := Option.bind_eq_some_iff.mp h
    obtain ⟨database, -, h⟩ := Option.bind_eq_some_iff.mp h
    cases h
    exact ⟨database, rfl⟩
  · cases h

/-- The kinds of the statements whose table is read as a draft of its own. -/
def closedKinds : List String :=
  ["select", "delete", "create_retention_policy", "alter_retention_policy", "show_tag_keys",
    "show_field_keys"]

/-- A statement of one of these kinds has a closed record, which its table has to fit.  Of another
    kind it has an open one, and what is read does not depend on keys that are no fields. -/
theorem isClosed_or_isOpen {kind : String} {r : Record} {draft : StatementDraft}
    (h : ofRecord? kind r = some draft) :
    (draft.layout.isClosed = true ∧ kind ∈ closedKinds ∧
      ∀ r', draft.layout.fits r' = false → ofRecord? kind r' = none) ∨
    (draft.layout.isClosed = false ∧ kind ∉ closedKinds ∧
      ∀ before after name d, name ∉ draft.layout.fields →
        ofRecord? kind (.keyed (before ++ (name, d) :: after)) =
          ofRecord? kind (.keyed (before ++ after))) := by
  unfold ofRecord? at h
  -- In each case the kind is a text of its own, and so is what is read from other records.
  split at h <;> simp only [ofRecord?]
  · obtain ⟨s, -, rfl⟩ := Option.map_eq_some_iff.mp h
    exact .inl ⟨rfl, by decide, fun _ => Layout.map_of_not_fits⟩
  · obtain ⟨s, -, rfl⟩ := Option.map_eq_some_iff.mp h
    exact .inl ⟨rfl, by decide, fun _ => Layout.map_of_not_fits⟩
  · obtain ⟨object, rfl⟩ := exists_of_object? h
    exact .inr ⟨rfl, by decide, fun _ _ _ _ hname =>
      object?_insert (List.ne_of_not_mem_cons hname) _⟩
  · obtain ⟨object, rfl⟩ := exists_of_object? h
    exact .inr ⟨rfl, by decide, fun _ _ _ _ hname =>
      object?_insert (List.ne_of_not_mem_cons hname) _⟩
  · obtain ⟨object, rfl⟩ := exists_of_object? h
    exact .inr ⟨rfl, by decide, fun _ _ _ _ hname =>
      object?_insert (List.ne_of_not_mem_cons hname) _⟩
  · obtain ⟨s, -, rfl⟩ := Option.map_eq_some_iff.mp h
    exact .inl ⟨rfl, by decide, fun _ => Layout.map_of_not_fits⟩
  · obtain ⟨s, -, rfl⟩ := Option.map_eq_some_iff.mp h
    exact .inl ⟨rfl, by decide, fun _ => Layout.map_of_not_fits⟩
  · obtain ⟨policy, database, rfl⟩ := exists_of_dropRetentionPolicy? h
    refine .inr ⟨rfl, by decide, fun _ _ _ _ hname => ?_⟩
    obtain ⟨hpolicy, hrest⟩ := List.ne_and_not_mem_of_not_mem_cons hname
    exact dropRetentionPolicy?_insert hpolicy (List.ne_of_not_mem_cons hrest)
  · obtain ⟨database, rfl⟩ := exists_of_list? h
    exact .inr ⟨rfl, by decide, fun _ _ _ _ hname =>
      list?_insert (List.ne_of_not_mem_cons hname) _⟩
  · obtain ⟨database, rfl⟩ := exists_of_list? h
    exact .inr ⟨rfl, by decide, fun _ _ _ _ hname =>
      list?_insert (List.ne_of_not_mem_cons hname) _⟩
  · split at h
    · cases h
      exact .inr ⟨rfl, by decide, fun _ _ _ _ _ => rfl⟩
    · cases h
  · obtain ⟨s, -, rfl⟩ := Option.map_eq_some_iff.mp h
    exact .inl ⟨rfl, by decide, fun _ => Layout.map_of_not_fits⟩
  · obtain ⟨s, -, rfl⟩ := Option.map_eq_some_iff.mp h
    exact .inl ⟨rfl, by decide, fun _ => Layout.map_of_not_fits⟩
  · cases h

/-- With a key too many a closed record is refused and an open one is what it was. -/
theorem ofRecord?_insert {kind : String} {draft : StatementDraft}
    (h : ofRecord? kind (.keyed (before ++ after)) = some draft)
    (hname : name ∉ draft.layout.fields) :
    ofRecord? kind (.keyed (before ++ (name, d) :: after)) =
      if draft.layout.isClosed then none else some draft := by
  rcases isClosed_or_isOpen h with ⟨hclosed, -, hfits⟩ | ⟨hopen, -, hinsert⟩
  · rw [hfits _ (Layout.fits_insert_of_isClosed hclosed hname), if_pos hclosed]
  · rw [hinsert before after name d hname, h, hopen]
    rfl

/-- The kind that a table names says whether its record is closed. -/
theorem isClosed_layout_iff {members : List (String × Document)} {kind : String}
    {draft : StatementDraft} (h : ofDocument? (.table members) = some draft)
    (hkind : (kindKey, Document.text kind) ∈ members) :
    draft.layout.isClosed = true ↔ kind ∈ closedKinds := by
  have hmem : (kindKey, Document.text kind) ∈ members.filter fun (key, _) => key == kindKey :=
    List.mem_filter.mpr ⟨hkind, beq_self_eq_true kindKey⟩
  unfold ofDocument? at h
  dsimp only at h
  split at h
  · rename_i hone
    rw [hone] at hmem
    cases List.mem_singleton.mp hmem
    rcases isClosed_or_isOpen h with ⟨hclosed, hkind, -⟩ | ⟨hopen, hkind, -⟩
    · exact iff_of_true hclosed hkind
    · exact iff_of_false (by rw [hopen]; exact Bool.false_ne_true) hkind
  · cases h

/-- The members that do not say which statement a table gives. -/
theorem ofDocument?_insert {draft : StatementDraft}
    (h : ofDocument? (.table (before ++ after)) = some draft) (hkind : name ≠ kindKey)
    (hname : name ∉ draft.layout.fields) :
    ofDocument? (.table (before ++ (name, d) :: after)) =
      if draft.layout.isClosed then none else some draft := by
  have hothers : (before ++ (name, d) :: after).filter (fun (key, _) => !(key == kindKey)) =
      before.filter (fun (key, _) => !(key == kindKey)) ++
        (name, d) :: after.filter fun (key, _) => !(key == kindKey) := by
    rw [List.filter_append, List.filter_cons_of_pos (by simpa using hkind)]
  unfold ofDocument? at h ⊢
  dsimp only at h ⊢
  rw [filter_keys_insert (p := (· == kindKey)) (beq_false_of_ne hkind), hothers]
  split at h
  · rename_i kind hone
    rw [hone]
    rw [List.filter_append] at h
    exact ofRecord?_insert h hname
  · cases h

end StatementDraft

end Insert
end SeriesQuery
