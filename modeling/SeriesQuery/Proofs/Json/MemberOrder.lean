/-
The order of members in a text.

Two texts write the same but for the order of members if they write trees that differ in nothing
else; blanks may differ as well.  Each token is read as before, wherever it stands, so the trees
are read as documents that differ in the order of members, or both are refused.  What is read from
such documents is the same: values, terms, and batches with all the statements in them.
-/
import SeriesQuery.CommandLine.Load
import SeriesQuery.Proofs.Draft.MemberOrder
import SeriesQuery.Proofs.Json.Reading

namespace SeriesQuery.Json

/-! ### Rearranging -/

mutual

/-- The same tree, but for the order of the members of tables at any depth. -/
inductive Tree.Rearranged : Tree → Tree → Prop
  | same (tree : Tree) : Tree.Rearranged tree tree
  | list {items items' : List Tree} (h : ItemsRearranged items items') :
      Tree.Rearranged (.list items) (.list items')
  | table {members members' : List (Quoted × Tree)} (h : MembersRearranged members members') :
      Tree.Rearranged (.table members) (.table members')

/-- The same items, each one rearranged. -/
inductive ItemsRearranged : List Tree → List Tree → Prop
  | nil : ItemsRearranged [] []
  | cons {tree tree' : Tree} {items items' : List Tree} (h : tree.Rearranged tree')
      (hs : ItemsRearranged items items') : ItemsRearranged (tree :: items) (tree' :: items')

/-- The same members in any order, each one rearranged. -/
inductive MembersRearranged : List (Quoted × Tree) → List (Quoted × Tree) → Prop
  | nil : MembersRearranged [] []
  | cons {key : Quoted} {tree tree' : Tree} {members members' : List (Quoted × Tree)}
      (h : tree.Rearranged tree') (hs : MembersRearranged members members') :
      MembersRearranged ((key, tree) :: members) ((key, tree') :: members')
  | swap (x y : Quoted × Tree) (members : List (Quoted × Tree)) :
      MembersRearranged (x :: y :: members) (y :: x :: members)
  | trans {members between members' : List (Quoted × Tree)}
      (h : MembersRearranged members between) (h' : MembersRearranged between members') :
      MembersRearranged members members'

end

/-- Any permutation of the members rearranges them. -/
theorem MembersRearranged.of_perm {members members' : List (Quoted × Tree)}
    (h : members.Perm members') : MembersRearranged members members' := by
  induction h with
  | nil => exact .nil
  | cons x _ ih => exact .cons (.same x.2) ih
  | swap x y members => exact .swap y x members
  | trans _ _ ih ih' => exact .trans ih ih'

/-- The texts write the same, but for blanks and the order of the members of tables. -/
def Rearranged (text text' : String) : Prop :=
  ∃ tree tree' : Tree, tree.WrittenBy text ∧ tree'.WrittenBy text' ∧ tree.Rearranged tree'

/-! ### Reading rearranged trees -/

/-- Two members are read in either order alike. -/
theorem readMembers_swap (depth : Nat) (x y : Quoted × Tree) (members : List (Quoted × Tree)) :
    Option.Rel Document.MembersRearranged (readMembers depth (x :: y :: members))
      (readMembers depth (y :: x :: members)) := by
  obtain ⟨xkey, x⟩ := x
  obtain ⟨ykey, y⟩ := y
  simp only [readMembers]
  generalize xkey.read = xkey, x.read depth = x, ykey.read = ykey, y.read depth = y,
    readMembers depth members = members
  cases xkey <;> cases x <;> cases ykey <;> cases y <;> cases members <;>
    first
      | exact .none
      | exact .some (.swap _ _ _)

mutual

/-- A rearranged tree is read as a rearranged document, or both are refused. -/
theorem Tree.Rearranged.read {tree tree' : Tree} : tree.Rearranged tree' →
    ∀ depth, Option.Rel Document.Rearranged (tree.read depth) (tree'.read depth)
  | .same _, _ => rel_refl .same
  | .list _, 0 | .table _, 0 => .none
  | .list h, depth + 1 => rel_map (h.read depth) .list
  | .table h, depth + 1 => rel_map (h.read depth) .table

theorem ItemsRearranged.read {items items' : List Tree} : ItemsRearranged items items' →
    ∀ depth, Option.Rel Document.ItemsRearranged (readItems depth items) (readItems depth items')
  | .nil, _ => .some .nil
  | .cons h hs, depth =>
      rel_bind (h.read depth) fun hd => rel_bind (hs.read depth) fun hds => .some (.cons hd hds)

theorem MembersRearranged.read {members members' : List (Quoted × Tree)} :
    MembersRearranged members members' →
      ∀ depth, Option.Rel Document.MembersRearranged (readMembers depth members)
        (readMembers depth members')
  | .nil, _ => .some .nil
  | @MembersRearranged.cons key _ _ _ _ h hs, depth => by
      unfold readMembers
      cases key.read with
      | none => exact .none
      | some s =>
          show Option.Rel _ (Tree.read _ _ >>= _) (Tree.read _ _ >>= _)
          exact rel_bind (h.read depth) fun hd => rel_bind (hs.read depth) fun hds =>
            .some (.cons hd hds)
  | .swap x y members, depth => readMembers_swap depth x y members
  | .trans h h', depth => rel_trans .trans (h.read depth) (h'.read depth)

end

/-- Rearranged texts write rearranged documents, or both are refused. -/
theorem Rearranged.document? {text text' : String} (h : Rearranged text text') :
    Option.Rel Document.Rearranged (document? text) (Json.document? text') := by
  obtain ⟨tree, tree', htext, htext', htree⟩ := h
  rw [htext.document?, htext'.document?]
  exact htree.read maxDepth

/-- What does not see the order in a document does not see it in a text. -/
theorem Rearranged.bind {text text' : String} (h : Rearranged text text') {α : Type}
    {read : Document → Option α} (hread : Document.Orderless read) :
    Json.document? text >>= read = Json.document? text' >>= read := by
  have hd := h.document?
  generalize Json.document? text = o at hd
  generalize Json.document? text' = o' at hd
  cases hd with
  | none => rfl
  | some h => exact hread h

/-! ### Results -/

/-- Neither text gives a batch, or both give batches whose statements compile alike under any
    settings, one by one. -/
def SameResults (text text' : String) : Prop :=
  Batch.ofJson text = .error .malformed ∧ Batch.ofJson text' = .error .malformed ∨
    ∃ batch batch', Batch.ofJson text = .ok batch ∧ Batch.ofJson text' = .ok batch' ∧
      ∀ settings, batch.statements.map (StatementDraft.compile settings) =
        batch'.statements.map (StatementDraft.compile settings)

/-- **The order of members in a text never matters: batches compile alike, and values and terms
    are read alike, which of their forms they have included.** -/
theorem same_results_of_rearranged {text text' : String} (h : Rearranged text text') :
    SameResults text text' ∧
    Json.document? text >>= ValueDraft.ofDocument? =
      Json.document? text' >>= ValueDraft.ofDocument? ∧
    Json.document? text >>= TermDraft.ofDocument? =
      Json.document? text' >>= TermDraft.ofDocument? := by
  refine ⟨?_, h.bind ValueDraft.orderless_ofDocument?,
    h.bind fun _ _ h => TermDraft.ofDocument?_rearranged h⟩
  have hbatch := h.bind Batch.orderless_ofDocument?
  unfold SameResults Batch.ofJson describe
  rw [hbatch]
  cases Json.document? text' >>= Batch.ofDocument? with
  | none => exact .inl ⟨rfl, rfl⟩
  | some batch => exact .inr ⟨batch, batch, rfl, rfl, fun _ => rfl⟩

/-- A statement whose name stands before its kind. -/
theorem same_results_of_kind_last :
    let first := "\x7b\"statement\":[\x7b\"kind\":\"drop_database\",\"name\":\"a\"\x7d]\x7d"
    let last := "\x7b\"statement\":[\x7b\"name\":\"a\",\"kind\":\"drop_database\"\x7d]\x7d"
    Rearranged first last ∧ SameResults first last ∧
      Batch.ofJson last = .ok ⟨[.object .dropDatabase "a"]⟩ := by
  intro first last
  let kind : Quoted × Tree :=
    (⟨"kind".toList, by decide⟩, .quoted ⟨"drop_database".toList, by decide⟩)
  let name : Quoted × Tree := (⟨"name".toList, by decide⟩, .quoted ⟨"a".toList, by decide⟩)
  let batch (members : List (Quoted × Tree)) : Tree :=
    .table [(⟨"statement".toList, by decide⟩, .list [.table members])]
  have hfirst : (batch [kind, name]).WrittenBy first := Tree.writtenBy_compact _
  have hlast : (batch [name, kind]).WrittenBy last := Tree.writtenBy_compact _
  have hstatement : Tree.Rearranged (.table [kind, name]) (.table [name, kind]) :=
    .table (.of_perm (.swap name kind []))
  have h : Rearranged first last :=
    ⟨_, _, hfirst, hlast, .table (.cons (.list (.cons hstatement .nil)) .nil)⟩
  have hbatch : Batch.ofJson last = .ok ⟨[.object .dropDatabase "a"]⟩ := by
    unfold Batch.ofJson describe
    rw [hlast.document?]
    rfl
  exact ⟨h, (same_results_of_rearranged h).1, hbatch⟩

end SeriesQuery.Json
