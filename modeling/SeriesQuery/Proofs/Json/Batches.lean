/-
Batches in texts.

The statements of a batch stand in a list, and that list is the only member of a table or the only
item of a list.  Nothing else around them is read: a text that gives statements at all has one of
these two forms.  Either way each statement is read on its own, as a tree that is given what depth
is left, so the batch is what its statements are, or it is refused because one of them is.
-/
import SeriesQuery.CommandLine.Load
import SeriesQuery.Proofs.Json.Coverage
import SeriesQuery.Proofs.Json.Reading

namespace SeriesQuery.Json

open Text Text.Reader

/-- How a batch encloses its statements. -/
inductive BatchForm where
  /-- In a table, as the value of its only member. -/
  | keyed (key : Quoted) (hkey : key.read = some "statement")
  /-- In a list, as its only item. -/
  | placed

/-- The draft that a tree stands for where a batch has its statements. -/
def draft? (statement : Tree) : Option StatementDraft :=
  statement.read (maxDepth - 2) >>= StatementDraft.ofDocument?

namespace BatchForm

/-- The batch with these statements. -/
def tree (statements : List Tree) : BatchForm → Tree
  | keyed key _ => .table [(key, .list statements)]
  | placed => .list [.list statements]

/-- What the batch is read as, from what its statements are read as. -/
def document (statements : List Document) : BatchForm → Document
  | keyed _ _ => .table [("statement", .list statements)]
  | placed => .list [.list statements]

/-- What encloses the statements takes two levels of depth. -/
theorem read_tree (form : BatchForm) (depth : Nat) (statements : List Tree) :
    (form.tree statements).read (depth + 2) =
      (readItems depth statements).map fun ds => form.document ds := by
  cases form with
  | keyed key hkey =>
      show (readMembers (depth + 1) [(key, .list statements)]).map Document.table = _
      rw [readMembers, hkey, Tree.read]
      cases readItems depth statements <;> rfl
  | placed =>
      show (readItems (depth + 1) [.list statements]).map Document.list = _
      rw [readItems, Tree.read]
      cases readItems depth statements <;> rfl

theorem ofDocument?_document (form : BatchForm) (statements : List Document) :
    Batch.ofDocument? (form.document statements) =
      (statements.mapM StatementDraft.ofDocument?).map Batch.mk := by
  have hread : Batch.ofDocument? (form.document statements) =
      statements.mapM StatementDraft.ofDocument? >>= fun drafts => some (Batch.mk drafts) := by
    cases form <;> rfl
  rw [hread]
  cases statements.mapM StatementDraft.ofDocument? <;> rfl

end BatchForm

/-! ### Statements without escapes -/

/-- The token of a text that stands in it as it is. -/
def Quoted.ofText (s : String) (h : isBody s.toList = true) : Quoted :=
  ⟨s.toList, h⟩

/-- The tree of a text that stands in its token as it is. -/
def Tree.ofText (s : String) (h : isBody s.toList = true) : Tree :=
  .quoted (.ofText s h)

/-- A statement: its kind, and then its other members. -/
def Tree.ofKind (kind : String) (h : isBody kind.toList = true) (members : List (Quoted × Tree)) :
    Tree :=
  .table ((.ofText "kind" (by decide), .ofText kind h) :: members)

/-- A table with its key as it is read. -/
def BatchForm.plain : BatchForm :=
  .keyed (.ofText "statement" (by decide)) (by decide)

/-! ### From statements to a batch -/

/-- Items that are read all before the first is looked at can be read one by one. -/
theorem readItems_bind_mapM {α : Type} (depth : Nat) (f : Document → Option α)
    (trees : List Tree) :
    readItems depth trees >>= List.mapM f = trees.mapM fun tree => tree.read depth >>= f := by
  induction trees with
  | nil => cases depth <;> rfl
  | cons tree trees ih =>
      rw [List.mapM_cons, ← ih, readItems]
      cases tree.read depth with
      | none => rfl
      | some d =>
          cases readItems depth trees with
          | none =>
              show none = f d >>= fun _ => none
              cases f d <;> rfl
          | some ds =>
              show (d :: ds).mapM f = _
              exact List.mapM_cons

/-- A text with a batch is read statement by statement. -/
theorem ofJson_of_writtenBy {form : BatchForm} {statements : List Tree} {text : String}
    (htext : (form.tree statements).WrittenBy text) :
    Batch.ofJson text =
      match statements.mapM draft? with
      | some drafts => .ok ⟨drafts⟩
      | none => .error .malformed := by
  have hdocument : document? text =
      (readItems (maxDepth - 2) statements).map fun ds => form.document ds :=
    htext.document?.trans (form.read_tree (maxDepth - 2) statements)
  have hread : document? text >>= Batch.ofDocument? = (statements.mapM draft?).map Batch.mk := by
    unfold draft?
    rw [hdocument, ← readItems_bind_mapM]
    cases readItems (maxDepth - 2) statements with
    | none => rfl
    | some ds => exact form.ofDocument?_document ds
  unfold Batch.ofJson describe
  rw [hread]
  cases statements.mapM draft? <;> rfl

/-! ### Scalars -/

/-- The document is no list and no table. -/
def IsScalar (d : Document) : Prop :=
  (∀ items, d ≠ .list items) ∧ ∀ members, d ≠ .table members

/-- The reader reads no list and no table. -/
def ReadsScalars (r : Reader Document) : Prop :=
  ∀ ⦃s d rest⦄, r s = some (d, rest) → IsScalar d

namespace ReadsScalars

theorem pure {d : Document} (hd : IsScalar d) : ReadsScalars (pure d) := by
  intro s d' rest h
  cases h
  exact hd

theorem bind {α : Type} {r : Reader α} {f : α → Reader Document}
    (hf : ∀ a, ReadsScalars (f a)) : ReadsScalars (r >>= f) := by
  intro s d rest h
  rw [bind_apply] at h
  obtain ⟨⟨a, left⟩, -, h⟩ := Option.bind_eq_some_iff.mp h
  exact hf a h

theorem orElse {r r' : Reader Document} (hr : ReadsScalars r) (hr' : ReadsScalars r') :
    ReadsScalars (r <|> r') := by
  intro s d rest h
  rw [orElse_apply] at h
  cases hrs : r s with
  | none =>
      rw [hrs] at h
      exact hr' h
  | some x =>
      rw [hrs] at h
      cases h
      exact hr hrs

end ReadsScalars

theorem isScalar_of_numberOf? {negative : Bool} {whole : List Char}
    {fraction : Option (List Char)} {exponent : Option Int} {d : Document}
    (h : numberOf? negative whole fraction exponent = some d) : IsScalar d := by
  unfold numberOf? at h
  dsimp only at h
  split at h
  · cases h
    exact ⟨nofun, nofun⟩
  · split at h
    · cases h
      exact ⟨nofun, nofun⟩
    · obtain ⟨x, -, h⟩ := Option.bind_eq_some_iff.mp h
      cases h
      exact ⟨nofun, nofun⟩

theorem readsScalars_number : ReadsScalars number := by
  refine .bind fun minus => .bind fun whole => .bind fun fraction => .bind fun exponent => ?_
  split
  · rename_i d h
    exact .pure (isScalar_of_numberOf? h)
  · exact nofun

theorem readsScalars_scalar : ReadsScalars scalar := by
  refine .orElse ?_ (readsScalars_number.orElse (.orElse ?_ (.orElse ?_ ?_)))
  all_goals exact .bind fun _ => .pure ⟨nofun, nofun⟩

theorem Word.isScalar_of_read {w : Word} {depth : Nat} {d : Document}
    (h : (Tree.word w).read depth = some d) : IsScalar d := by
  have hread : (Tree.word w).read depth = whole scalar w.text := by cases depth <;> rfl
  rw [hread] at h
  exact readsScalars_scalar (whole_eq_some_iff.mp h)

/-! ### From a batch to its statements -/

/-- Only a list is read as a list, item by item. -/
theorem Tree.exists_of_read_list {tree : Tree} {depth : Nat} {ds : List Document}
    (h : tree.read (depth + 1) = some (.list ds)) :
    ∃ items, tree = .list items ∧ readItems depth items = some ds := by
  cases tree with
  | word w => exact absurd rfl ((Word.isScalar_of_read h).1 ds)
  | list items =>
      obtain ⟨ds, hds, h⟩ := Option.map_eq_some_iff.mp h
      cases h
      exact ⟨items, rfl, hds⟩
  | quoted _ | table _ =>
      obtain ⟨_, -, h⟩ := Option.map_eq_some_iff.mp h
      cases h

/-- Only a table is read as a table, member by member. -/
theorem Tree.exists_of_read_table {tree : Tree} {depth : Nat} {ds : List (String × Document)}
    (h : tree.read (depth + 1) = some (.table ds)) :
    ∃ members, tree = .table members ∧ readMembers depth members = some ds := by
  cases tree with
  | word w => exact absurd rfl ((Word.isScalar_of_read h).2 ds)
  | table members =>
      obtain ⟨ds, hds, h⟩ := Option.map_eq_some_iff.mp h
      cases h
      exact ⟨members, rfl, hds⟩
  | quoted _ | list _ =>
      obtain ⟨_, -, h⟩ := Option.map_eq_some_iff.mp h
      cases h

theorem exists_of_readItems_cons {depth : Nat} {items : List Tree} {d : Document}
    {ds : List Document} (h : readItems depth items = some (d :: ds)) :
    ∃ tree rest, items = tree :: rest ∧ tree.read depth = some d ∧
      readItems depth rest = some ds := by
  cases items with
  | nil =>
      rw [readItems] at h
      cases h
  | cons tree rest =>
      rw [readItems] at h
      obtain ⟨d, hd, h⟩ := Option.bind_eq_some_iff.mp h
      obtain ⟨ds, hds, h⟩ := Option.bind_eq_some_iff.mp h
      cases h
      exact ⟨tree, rest, rfl, hd, hds⟩

theorem exists_of_readMembers_cons {depth : Nat} {members : List (Quoted × Tree)}
    {name : String} {d : Document} {ds : List (String × Document)}
    (h : readMembers depth members = some ((name, d) :: ds)) :
    ∃ key tree rest, members = (key, tree) :: rest ∧ key.read = some name ∧
      tree.read depth = some d ∧ readMembers depth rest = some ds := by
  cases members with
  | nil =>
      rw [readMembers] at h
      cases h
  | cons member rest =>
      obtain ⟨key, tree⟩ := member
      rw [readMembers] at h
      obtain ⟨s, hs, h⟩ := Option.bind_eq_some_iff.mp h
      obtain ⟨d, hd, h⟩ := Option.bind_eq_some_iff.mp h
      obtain ⟨ds, hds, h⟩ := Option.bind_eq_some_iff.mp h
      cases h
      exact ⟨key, tree, rest, rfl, hs, hd, hds⟩

theorem eq_nil_of_readItems {depth : Nat} {items : List Tree}
    (h : readItems depth items = some []) : items = [] := by
  cases items with
  | nil => rfl
  | cons tree rest =>
      rw [readItems] at h
      obtain ⟨_, -, h⟩ := Option.bind_eq_some_iff.mp h
      obtain ⟨_, -, h⟩ := Option.bind_eq_some_iff.mp h
      cases h

theorem eq_nil_of_readMembers {depth : Nat} {members : List (Quoted × Tree)}
    (h : readMembers depth members = some []) : members = [] := by
  cases members with
  | nil => rfl
  | cons member rest =>
      rw [readMembers] at h
      obtain ⟨_, -, h⟩ := Option.bind_eq_some_iff.mp h
      obtain ⟨_, -, h⟩ := Option.bind_eq_some_iff.mp h
      obtain ⟨_, -, h⟩ := Option.bind_eq_some_iff.mp h
      cases h

/-- Drafts come from a list. -/
theorem exists_of_drafts {slot : Slot} {drafts : List StatementDraft}
    (h : slot.orDefault [] (Document.listOf? StatementDraft.ofDocument?) = some drafts)
    (hne : drafts ≠ []) : ∃ ds, slot = .given (.list ds) := by
  cases slot with
  | missing | beyond =>
      cases h
      exact absurd rfl hne
  | given d =>
      cases d with
      | list ds => exact ⟨ds, rfl⟩
      | _ => cases h

/-- In a table with no other key every member is asked for. -/
theorem filter_keys_of_forall {members : List (String × Document)} {name : String}
    (h : ∀ member ∈ members, member.1 = name) :
    members.filter (fun (key, _) => key == name) = members :=
  List.filter_eq_self.mpr fun member hmember => beq_iff_eq.mpr (h member hmember)

/-- What is read of a document that gives a batch. -/
theorem exists_slot_of_ofDocument? {d : Document} {batch : Batch}
    (h : Batch.ofDocument? d = some batch) :
    ∃ r slot, d.record? = some r ∧ Batch.layout.fits r = true ∧
      Batch.layout.slot? r "statement" = some slot ∧
      slot.orDefault [] (Document.listOf? StatementDraft.ofDocument?) = some batch.statements := by
  obtain ⟨r, hr, h⟩ := Option.bind_eq_some_iff.mp h
  split at h
  · rename_i hfits
    obtain ⟨slot, hslot, h⟩ := Option.bind_eq_some_iff.mp h
    obtain ⟨drafts, hdrafts, h⟩ := Option.bind_eq_some_iff.mp h
    cases h
    exact ⟨r, slot, hr, hfits, hslot, hdrafts⟩
  · cases h

/-- A document that gives statements has one of the two forms. -/
theorem exists_of_ofDocument? {d : Document} {batch : Batch}
    (h : Batch.ofDocument? d = some batch) (hne : batch.statements ≠ []) :
    ∃ ds, d = .table [("statement", .list ds)] ∨ d = .list [.list ds] := by
  obtain ⟨r, slot, hr, hfits, hslot, hdrafts⟩ := exists_slot_of_ofDocument? h
  obtain ⟨ds, rfl⟩ := exists_of_drafts hdrafts hne
  refine ⟨ds, ?_⟩
  cases d with
  | table members =>
      cases hr
      have hkeys (member) (h : member ∈ members) : member.1 = "statement" := by
        have hfield := List.all_eq_true.mp hfits member h
        exact List.mem_singleton.mp (List.contains_iff_mem.mp hfield)
      unfold Layout.slot? at hslot
      dsimp only at hslot
      rw [filter_keys_of_forall hkeys] at hslot
      rcases members with _ | ⟨⟨key, d⟩, _ | ⟨member, members⟩⟩
      · cases hslot
      · cases hslot
        have hkey : key = "statement" := hkeys _ List.mem_cons_self
        exact .inl (by rw [hkey])
      · cases hslot
  | list items =>
      cases hr
      have hlength : items.length ≤ 1 := of_decide_eq_true hfits
      rcases items with _ | ⟨item, _ | ⟨second, items⟩⟩
      · cases hslot
      · cases hslot
        exact .inr rfl
      · exact absurd hlength (by simp)
  | _ => cases hr

/-- **A text that gives statements writes a batch in one of the two forms, statement by
    statement.** -/
theorem exists_batchForm {text : String} {batch : Batch} (h : Batch.ofJson text = .ok batch)
    (hne : batch.statements ≠ []) :
    ∃ (form : BatchForm) (statements : List Tree), (form.tree statements).WrittenBy text ∧
      statements.mapM draft? = some batch.statements := by
  obtain ⟨d, hd, hbatch⟩ : ∃ d, document? text = some d ∧ Batch.ofDocument? d = some batch := by
    unfold Batch.ofJson describe at h
    split at h
    · rename_i b hread
      cases h
      exact Option.bind_eq_some_iff.mp hread
    · cases h
  obtain ⟨tree, htree⟩ := exists_writtenBy hd
  rw [htree.document?] at hd
  have hform : ∃ (form : BatchForm) (statements : List Tree), tree = form.tree statements := by
    obtain ⟨ds, rfl | rfl⟩ := exists_of_ofDocument? hbatch hne
    · obtain ⟨members, rfl, hmembers⟩ := Tree.exists_of_read_table hd
      obtain ⟨key, value, rest, rfl, hkey, hvalue, hrest⟩ := exists_of_readMembers_cons hmembers
      obtain ⟨statements, rfl, -⟩ := Tree.exists_of_read_list hvalue
      rw [eq_nil_of_readMembers hrest]
      exact ⟨.keyed key hkey, statements, rfl⟩
    · obtain ⟨items, rfl, hitems⟩ := Tree.exists_of_read_list hd
      obtain ⟨item, rest, rfl, hitem, hrest⟩ := exists_of_readItems_cons hitems
      obtain ⟨statements, rfl, -⟩ := Tree.exists_of_read_list hitem
      rw [eq_nil_of_readItems hrest]
      exact ⟨.placed, statements, rfl⟩
  obtain ⟨form, statements, rfl⟩ := hform
  refine ⟨form, statements, htree, ?_⟩
  rw [ofJson_of_writtenBy htree] at h
  split at h
  · rename_i drafts hdrafts
    cases h
    exact hdrafts
  · cases h

end SeriesQuery.Json
