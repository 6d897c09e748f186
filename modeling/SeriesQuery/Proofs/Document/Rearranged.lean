/-
Documents that differ in the order of members.

A table keeps its members in the order in which they are written.  What reads a record asks for
one field after another, and for each field it looks at the members with that key only: none, one,
or an error.  So the order of the members does not show, and neither does the order inside the
members, as long as what reads them does not see it.  `Orderless` says so of one way of reading,
and each lemma below passes it on from what reads the parts to what reads the whole.
-/
import Mathlib.Data.List.Forall2
import SeriesQuery.Record

namespace SeriesQuery

/-! ### Related results -/

section Related

variable {α β : Type} {R : α → α → Prop} {S : β → β → Prop} {o o' : Option α}

theorem rel_refl (h : ∀ a, R a a) : Option.Rel R o o := by
  cases o with
  | none => exact .none
  | some a => exact .some (h a)

theorem rel_trans {o'' : Option α} (htrans : ∀ {a b c}, R a b → R b c → R a c)
    (h : Option.Rel R o o') (h' : Option.Rel R o' o'') : Option.Rel R o o'' := by
  cases h with
  | none => exact h'
  | some h =>
      cases h' with
      | some h' => exact .some (htrans h h')

theorem rel_bind {f g : α → Option β} (h : Option.Rel R o o')
    (hfg : ∀ {a a'}, R a a' → Option.Rel S (f a) (g a')) : Option.Rel S (o >>= f) (o' >>= g) := by
  cases h with
  | none => exact .none
  | some h => exact hfg h

theorem rel_map {f : α → β} (h : Option.Rel R o o') (hf : ∀ {a a'}, R a a' → S (f a) (f a')) :
    Option.Rel S (o.map f) (o'.map f) := by
  cases h with
  | none => exact .none
  | some h => exact .some (hf h)

end Related

namespace Document

/-! ### Rearranging -/

mutual

/-- The same document, but for the order of the members of tables at any depth. -/
inductive Rearranged : Document → Document → Prop
  | same (d : Document) : Rearranged d d
  | list {items items' : List Document} (h : ItemsRearranged items items') :
      Rearranged (list items) (list items')
  | table {members members' : List (String × Document)} (h : MembersRearranged members members') :
      Rearranged (table members) (table members')

/-- The same items, each one rearranged. -/
inductive ItemsRearranged : List Document → List Document → Prop
  | nil : ItemsRearranged [] []
  | cons {d d' : Document} {items items' : List Document} (h : Rearranged d d')
      (hs : ItemsRearranged items items') : ItemsRearranged (d :: items) (d' :: items')

/-- The same members in any order, each one rearranged. -/
inductive MembersRearranged : List (String × Document) → List (String × Document) → Prop
  | nil : MembersRearranged [] []
  | cons {key : String} {d d' : Document} {members members' : List (String × Document)}
      (h : Rearranged d d') (hs : MembersRearranged members members') :
      MembersRearranged ((key, d) :: members) ((key, d') :: members')
  | swap (x y : String × Document) (members : List (String × Document)) :
      MembersRearranged (x :: y :: members) (y :: x :: members)
  | trans {members between members' : List (String × Document)}
      (h : MembersRearranged members between) (h' : MembersRearranged between members') :
      MembersRearranged members members'

end

mutual

theorem Rearranged.trans {a b c : Document} : Rearranged a b → Rearranged b c → Rearranged a c
  | .same _, h => h
  | .list h, .same _ => .list h
  | .list h, .list h' => .list (h.trans h')
  | .table h, .same _ => .table h
  | .table h, .table h' => .table (h.trans h')

theorem ItemsRearranged.trans {as bs cs : List Document} :
    ItemsRearranged as bs → ItemsRearranged bs cs → ItemsRearranged as cs
  | .nil, .nil => .nil
  | .cons h hs, .cons h' hs' => .cons (h.trans h') (hs.trans hs')

end

theorem ItemsRearranged.refl : ∀ items : List Document, ItemsRearranged items items
  | [] => .nil
  | d :: items => .cons (.same d) (refl items)

theorem MembersRearranged.refl :
    ∀ members : List (String × Document), MembersRearranged members members
  | [] => .nil
  | (_, d) :: members => .cons (.same d) (refl members)

/-! ### Items -/

theorem ItemsRearranged.length_eq {items items' : List Document} :
    ItemsRearranged items items' → items.length = items'.length
  | .nil => rfl
  | .cons _ hs => congrArg (· + 1) hs.length_eq

theorem ItemsRearranged.getElem? {items items' : List Document} :
    ItemsRearranged items items' → ∀ i : Nat, Option.Rel Rearranged items[i]? items'[i]?
  | .nil, _ => .none
  | .cons h _, 0 => .some h
  | .cons _ hs, i + 1 => hs.getElem? i

/-! ### Members -/

theorem MembersRearranged.length_eq {members members' : List (String × Document)} :
    MembersRearranged members members' → members.length = members'.length
  | .nil => rfl
  | .cons _ hs => congrArg (· + 1) hs.length_eq
  | .swap _ _ _ => rfl
  | .trans h h' => h.length_eq.trans h'.length_eq

/-- A test of all keys does not see their order. -/
theorem MembersRearranged.all_keys {members members' : List (String × Document)}
    (p : String → Bool) : MembersRearranged members members' →
      (members.all fun (key, _) => p key) = members'.all fun (key, _) => p key
  | .nil => rfl
  | .cons _ hs => congrArg _ (hs.all_keys p)
  | .swap x y _ => Bool.and_left_comm (p x.1) (p y.1) _
  | .trans h h' => (h.all_keys p).trans (h'.all_keys p)

/-- The members with keys of some kind are rearranged among themselves. -/
theorem MembersRearranged.filter {members members' : List (String × Document)}
    (p : String → Bool) : MembersRearranged members members' →
      MembersRearranged (members.filter fun (key, _) => p key)
        (members'.filter fun (key, _) => p key)
  | .nil => .nil
  | @MembersRearranged.cons key _ _ _ _ h hs => by
      simp only [List.filter_cons]
      split
      · exact .cons h (hs.filter p)
      · exact hs.filter p
  | .swap x y members => by
      simp only [List.filter_cons]
      by_cases hx : p x.1 = true <;> by_cases hy : p y.1 = true <;> simp only [hx, hy, if_true]
      · exact .swap x y _
      all_goals exact .refl _
  | .trans h h' => (h.filter p).trans (h'.filter p)

theorem MembersRearranged.of_singleton {key : String} {d : Document}
    {members members' : List (String × Document)} (h : MembersRearranged members members')
    (hmembers : members = [(key, d)]) : ∃ d', members' = [(key, d')] ∧ Rearranged d d' := by
  match h with
  | .nil => cases hmembers
  | @MembersRearranged.cons _ _ d' _ _ h hs =>
      cases hmembers
      have hnil := List.length_eq_zero_iff.mp hs.length_eq.symm
      exact ⟨d', by rw [hnil], h⟩
  | .swap _ _ _ => cases hmembers
  | .trans h h' =>
      obtain ⟨between, hbetween, hd⟩ := h.of_singleton hmembers
      obtain ⟨d', hd', hd''⟩ := h'.of_singleton hbetween
      exact ⟨d', hd', hd.trans hd''⟩

/-- Rearranged members are none, one with the same key, or several. -/
theorem MembersRearranged.shape {members members' : List (String × Document)}
    (h : MembersRearranged members members') :
    (members = [] ∧ members' = []) ∨
      (∃ key d d', members = [(key, d)] ∧ members' = [(key, d')] ∧ Rearranged d d') ∨
      (∃ x y rest, members = x :: y :: rest) ∧ ∃ x y rest, members' = x :: y :: rest := by
  have hlength := h.length_eq
  match members with
  | [] => exact .inl ⟨rfl, List.length_eq_zero_iff.mp hlength.symm⟩
  | [(key, d)] =>
      obtain ⟨d', hd', hd⟩ := h.of_singleton rfl
      exact .inr (.inl ⟨key, d, d', rfl, hd', hd⟩)
  | x :: y :: rest =>
      match members' with
      | [] | [_] => cases hlength
      | x' :: y' :: rest' => exact .inr (.inr ⟨⟨x, y, rest, rfl⟩, x', y', rest', rfl⟩)

/-! ### Reading that does not see the order -/

/-- Rearranging a document makes no difference to what is read. -/
def Orderless {α : Type} (read : Document → α) : Prop :=
  ∀ ⦃d d' : Document⦄, Rearranged d d' → read d = read d'

section Reading

variable {α : Type} {read : Document → Option α}

/-- What takes neither lists nor tables has no order to see. -/
theorem orderless_of_scalar (hlist : ∀ items, read (list items) = none)
    (htable : ∀ members, read (table members) = none) : Orderless read := by
  intro d d' h
  cases h with
  | same d => rfl
  | list h => rw [hlist, hlist]
  | table h => rw [htable, htable]

theorem orderless_text? : Orderless text? :=
  orderless_of_scalar (fun _ => rfl) fun _ => rfl

theorem orderless_bool? : Orderless bool? :=
  orderless_of_scalar (fun _ => rfl) fun _ => rfl

theorem orderless_natBelow? (bound : Nat) : Orderless (natBelow? bound) :=
  orderless_of_scalar (fun _ => rfl) fun _ => rfl

theorem Orderless.bind {β : Type} (hread : Orderless read) (f : α → Option β) :
    Orderless fun d => read d >>= f := by
  intro d d' h
  exact congrArg (· >>= f) (hread h)

theorem Orderless.nullable? (hread : Orderless read) : Orderless (Document.nullable? read) := by
  intro d d' h
  cases h with
  | same d => rfl
  | list h => exact congrArg (Option.map some) (hread (.list h))
  | table h => exact congrArg (Option.map some) (hread (.table h))

theorem Orderless.mapM (hread : Orderless read) {items items' : List Document} :
    ItemsRearranged items items' → items.mapM read = items'.mapM read
  | .nil => rfl
  | .cons h hs => by
      rw [List.mapM_cons, List.mapM_cons, hread h, hread.mapM hs]

theorem Orderless.listOf? (hread : Orderless read) : Orderless (Document.listOf? read) := by
  intro d d' h
  cases h with
  | same d => rfl
  | list h => exact hread.mapM h
  | table h => rfl

/-- The only key of a table is the same in any order. -/
theorem Orderless.choice? {saysNothing : Document → Bool} (hquiet : Orderless saysNothing) :
    Orderless (Document.choice? saysNothing) := by
  intro d d' h
  cases h with
  | same d => rfl
  | list h => rfl
  | table h =>
      rcases h.shape with ⟨rfl, rfl⟩ | ⟨key, d, d', rfl, rfl, hd⟩ | ⟨⟨_, _, _, rfl⟩, _, _, _, rfl⟩
      · rfl
      · show (if saysNothing d then some key else none) = if saysNothing d' then some key else none
        rw [hquiet hd]
      · rfl

end Reading

end Document

/-! ### Records -/

/-- The same record, but for the order of members. -/
inductive Record.Rearranged : Record → Record → Prop
  | keyed {members members' : List (String × Document)}
      (h : Document.MembersRearranged members members') :
      Record.Rearranged (keyed members) (keyed members')
  | placed {items items' : List Document} (h : Document.ItemsRearranged items items') :
      Record.Rearranged (placed items) (placed items')

theorem Document.Rearranged.record? {d d' : Document} (h : d.Rearranged d') :
    Option.Rel Record.Rearranged d.record? d'.record? := by
  cases h with
  | same d =>
      cases d with
      | list items => exact .some (.placed (.refl items))
      | table members => exact .some (.keyed (.refl members))
      | _ => exact .none
  | list h => exact .some (.placed h)
  | table h => exact .some (.keyed h)

/-- Reading a record does not see the order if no way of going on from the record does. -/
theorem Document.Rearranged.bind_record {d d' : Document} (h : d.Rearranged d') {α : Type}
    {next : Record → Option α} (hnext : ∀ {r r' : Record}, r.Rearranged r' → next r = next r') :
    d.record? >>= next = d'.record? >>= next := by
  have hrecord := h.record?
  generalize d.record? = o at hrecord
  generalize d'.record? = o' at hrecord
  cases hrecord with
  | none => rfl
  | some hr => exact hnext hr

namespace Slot

/-- The same slot, but for the order of members in what it gives. -/
inductive Rearranged : Slot → Slot → Prop
  | missing : Rearranged missing missing
  | beyond : Rearranged beyond beyond
  | given {d d' : Document} (h : d.Rearranged d') : Rearranged (given d) (given d')

variable {α : Type} {read : Document → Option α} {s s' : Slot}

theorem Rearranged.required (hread : Document.Orderless read) (h : s.Rearranged s') :
    s.required read = s'.required read := by
  cases h with
  | given h => exact hread h
  | _ => rfl

theorem Rearranged.optional (hread : Document.Orderless read) (h : s.Rearranged s') :
    s.optional read = s'.optional read := by
  cases h with
  | given h => exact hread.nullable? h
  | _ => rfl

theorem Rearranged.orDefault (default : α) (hread : Document.Orderless read)
    (h : s.Rearranged s') : s.orDefault default read = s'.orDefault default read := by
  cases h with
  | given h => exact hread h
  | _ => rfl

theorem Rearranged.lenient (hread : Document.Orderless read) (h : s.Rearranged s') :
    s.lenient read = s'.lenient read :=
  h.orDefault none hread.nullable?

end Slot

namespace Layout

variable {r r' : Record}

theorem fits_rearranged (l : Layout) (h : r.Rearranged r') : l.fits r = l.fits r' := by
  cases h with
  | keyed h => exact congrArg (!l.isClosed || ·) (h.all_keys l.fields.contains)
  | placed h =>
      show decide (_ ≤ l.fields.length) = decide (_ ≤ l.fields.length)
      rw [h.length_eq]

theorem slot?_rearranged (l : Layout) (h : r.Rearranged r') (field : String) :
    Option.Rel Slot.Rearranged (l.slot? r field) (l.slot? r' field) := by
  unfold slot?
  cases h with
  | @placed items items' h =>
      have hitem := h.getElem? (l.fields.idxOf field)
      dsimp only
      generalize items[l.fields.idxOf field]? = item at hitem
      generalize items'[l.fields.idxOf field]? = item' at hitem
      cases hitem with
      | some h => exact .some (.given h)
      | none => exact .some .beyond
  | @keyed members members' h =>
      have hwith := h.filter (· == field)
      dsimp only
      generalize (members.filter fun (key, _) => key == field) = found at hwith
      generalize (members'.filter fun (key, _) => key == field) = found' at hwith
      rcases hwith.shape with
        ⟨rfl, rfl⟩ | ⟨_, _, _, rfl, rfl, hd⟩ | ⟨⟨_, _, _, rfl⟩, _, _, _, rfl⟩
      · exact .some .missing
      · exact .some (.given hd)
      · exact .none

/-- Whether a record fits does not depend on the order. -/
theorem if_fits (l : Layout) (h : r.Rearranged r') {α : Type} {o o' : Option α} (ho : o = o') :
    (if l.fits r then o else none) = if l.fits r' then o' else none := by
  rw [l.fits_rearranged h, ho]

/-- Reading a field and going on does not see the order if neither step does. -/
theorem bind_field (l : Layout) (h : r.Rearranged r') {α β : Type} {field : String}
    {use : Slot → Option α} (huse : ∀ {s s' : Slot}, s.Rearranged s' → use s = use s')
    {next next' : α → Option β} (hnext : ∀ a, next a = next' a) :
    (l.slot? r field >>= fun s => use s >>= next) =
      l.slot? r' field >>= fun s => use s >>= next' := by
  have hslot := l.slot?_rearranged h field
  have hsame : next = next' := funext hnext
  subst hsame
  generalize l.slot? r field = o at hslot
  generalize l.slot? r' field = o' at hslot
  cases hslot with
  | none => rfl
  | some hs =>
      show use _ >>= next = use _ >>= next
      rw [huse hs]

end Layout
end SeriesQuery
