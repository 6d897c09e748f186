/-
Drafts do not depend on the order of members.

Every draft is read from a record field by field, so the order of a record's members does not
show in it.  Which of several kinds of value or term a table gives is decided by trying one kind
after another on the whole table: by the keys it has, not by which of them comes first.  Terms
hold terms, so for them the argument is an induction on how the document was rearranged.
-/
import SeriesQuery.Draft.Batch
import SeriesQuery.Proofs.Document.Rearranged

namespace SeriesQuery

open Document

/-! ### Values -/

theorem Moment.orderless_ofDocument? : Orderless Moment.ofDocument? := by
  intro d d' h
  cases h with
  | same d => rfl
  | list h => rfl
  | table h =>
      have hseveral (x y : String × Document) (rest : List (String × Document)) :
          ofDocument? (table (x :: y :: rest)) = none := by
        obtain ⟨key, d⟩ := x
        cases d <;> rfl
      rcases h.shape with ⟨rfl, rfl⟩ | ⟨_, _, _, rfl, rfl, hd⟩ | ⟨⟨_, _, _, rfl⟩, _, _, _, rfl⟩
      · rfl
      · cases hd <;> rfl
      · rw [hseveral, hseveral]

namespace ValueDraft

theorem ofMembers?_rearranged {members members' : List (String × Document)}
    (h : MembersRearranged members members') : ofMembers? members = ofMembers? members' := by
  have hfield (key : String) {α : Type} {read : Document → Option α} (hread : Orderless read) :
      (Layout.slot? ⟨[key], false⟩ (.keyed members) key >>= fun s => s.required read) =
        Layout.slot? ⟨[key], false⟩ (.keyed members') key >>= fun s => s.required read := by
    have hslot := Layout.slot?_rearranged ⟨[key], false⟩ (.keyed h) key
    generalize Layout.slot? ⟨[key], false⟩ (.keyed members) key = o at hslot
    generalize Layout.slot? ⟨[key], false⟩ (.keyed members') key = o' at hslot
    cases hslot with
    | none => rfl
    | some hs => exact hs.required hread
  unfold ofMembers?
  dsimp only
  rw [hfield "duration" orderless_text?,
    hfield "time" (orderless_text?.bind Timestamp.ofText?),
    hfield "time" Moment.orderless_ofDocument?]

theorem orderless_ofDocument? : Orderless ofDocument? := by
  intro d d' h
  cases h with
  | same d => rfl
  | list h => rfl
  | table h => exact ofMembers?_rearranged h

end ValueDraft

/-! ### Terms -/

namespace TermDraft

theorem time?_rearranged {r r' : Record} (h : r.Rearranged r') : time? r = time? r' := by
  unfold time?
  refine Layout.bind_field _ h (Slot.Rearranged.required orderless_text?) fun interval => ?_
  exact Layout.bind_field _ h (Slot.Rearranged.optional orderless_text?) fun _ => rfl

theorem ordered?_rearranged {r r' : Record} (h : r.Rearranged r') (direction : String)
    (term : String → TermDraft) : ordered? r direction term = ordered? r' direction term := by
  unfold ordered?
  exact Layout.bind_field _ h (Slot.Rearranged.required orderless_text?) fun _ => rfl

/-- A call takes its arguments from one member, or has none, so the order of several does not
    matter. -/
theorem call?_rearranged {r r' : Record} (h : r.Rearranged r')
    {args args' : Option (List (List TermDraft))} (hargs : Option.Rel List.Perm args args') :
    call? r args = call? r' args' := by
  unfold call?
  refine Layout.bind_field _ h (Slot.Rearranged.required orderless_text?) fun function => ?_
  have halias (args : List TermDraft) :
      (Layout.slot? ⟨["function", argsKey, "alias"], false⟩ r "alias" >>= fun s =>
        s.optional text? >>= fun aliasName => pure (call function args aliasName)) =
      Layout.slot? ⟨["function", argsKey, "alias"], false⟩ r' "alias" >>= fun s =>
        s.optional text? >>= fun aliasName => pure (call function args aliasName) :=
    Layout.bind_field _ h (Slot.Rearranged.optional orderless_text?) fun _ => rfl
  cases hargs with
  | none => rfl
  | @some args args' hperm =>
      match args, args' with
      | [], [] => exact halias []
      | [a], [a'] =>
          cases List.perm_singleton.mp hperm.symm
          exact halias a
      | _ :: _ :: _, _ :: _ :: _ => rfl
      | [], _ :: _ => cases hperm.length_eq
      | _ :: _, [] => cases hperm.length_eq
      | [_], _ :: _ :: _ => cases hperm.length_eq
      | _ :: _ :: _, [_] => cases hperm.length_eq

/-! The arguments that members give, as far as their order goes. -/

private theorem rel_consArgs (args : List TermDraft) {o o' : Option (List (List TermDraft))}
    (h : Option.Rel List.Perm o o') :
    Option.Rel List.Perm (o >>= fun others => pure (args :: others))
      (o' >>= fun others => pure (args :: others)) :=
  rel_bind h fun h => .some (h.cons args)

theorem argsOf?_swap (x y : String × Document) (members : List (String × Document)) :
    Option.Rel List.Perm (argsOf? (x :: y :: members)) (argsOf? (y :: x :: members)) := by
  obtain ⟨xkey, x⟩ := x
  obtain ⟨ykey, y⟩ := y
  simp only [argsOf?]
  split
  · split
    · cases listOf? x with
      | none => cases listOf? y <;> exact .none
      | some xs =>
          cases listOf? y with
          | none => exact .none
          | some ys =>
              cases argsOf? members with
              | none => exact .none
              | some others => exact .some (.swap ys xs others)
    · exact rel_refl .refl
  · exact rel_refl .refl

mutual

theorem ofDocument?_rearranged {d d' : Document} :
    d.Rearranged d' → ofDocument? d = ofDocument? d'
  | .same d => rfl
  | .list _ => rfl
  | .table h => by
      have hr := Record.Rearranged.keyed h
      unfold ofDocument?
      dsimp only
      rw [call?_rearranged hr (argsOf?_rearranged h), time?_rearranged hr,
        ordered?_rearranged hr "asc" asc, ordered?_rearranged hr "desc" desc]

theorem allOf?_rearranged {items items' : List Document} :
    ItemsRearranged items items' → allOf? items = allOf? items'
  | .nil => rfl
  | .cons h hs => by
      rw [allOf?, allOf?, ofDocument?_rearranged h, allOf?_rearranged hs]

theorem listOf?_rearranged {d d' : Document} : d.Rearranged d' → listOf? d = listOf? d'
  | .same d => rfl
  | .list h => allOf?_rearranged h
  | .table _ => rfl

/-- The members for arguments give the same arguments, in another order of members. -/
theorem argsOf?_rearranged {members members' : List (String × Document)} :
    MembersRearranged members members' →
      Option.Rel List.Perm (argsOf? members) (argsOf? members')
  | .nil => .some .nil
  | .cons h hs => by
      rw [argsOf?, argsOf?, listOf?_rearranged h]
      split
      · cases listOf? _ with
        | none => exact .none
        | some args => exact rel_consArgs args (argsOf?_rearranged hs)
      · exact argsOf?_rearranged hs
  | .swap x y members => argsOf?_swap x y members
  | .trans h h' => rel_trans List.Perm.trans (argsOf?_rearranged h) (argsOf?_rearranged h')

end

theorem orderless_listOf? : Orderless listOf? :=
  fun _ _ h => listOf?_rearranged h

end TermDraft

/-! ### Statements -/

theorem FillDraft.orderless_ofDocument? : Orderless FillDraft.ofDocument? :=
  orderless_of_scalar (fun _ => rfl) fun _ => rfl

namespace ConditionDraft

theorem orderless_saysNothing : Orderless saysNothing := by
  intro d d' h
  cases h with
  | same d => rfl
  | list h => rfl
  | table h =>
      rcases h.shape with
        ⟨rfl, rfl⟩ | ⟨_, _, _, rfl, rfl, -⟩ | ⟨⟨_, _, _, rfl⟩, _, _, _, rfl⟩ <;> rfl

theorem orderless_conjunction? : Orderless conjunction? :=
  orderless_saysNothing.choice?.bind _

theorem orderless_ofDocument? : Orderless ofDocument? := by
  intro d d' h
  refine h.bind_record fun hr => layout.if_fits hr ?_
  refine layout.bind_field hr (Slot.Rearranged.required orderless_text?) fun expression => ?_
  refine layout.bind_field hr
    (Slot.Rearranged.orDefault [] ValueDraft.orderless_ofDocument?.listOf?) fun values => ?_
  exact layout.bind_field hr (Slot.Rearranged.orDefault .and orderless_conjunction?) fun _ => rfl

end ConditionDraft

section Records

variable {r r' : Record}

theorem SelectDraft.ofRecord?_rearranged (h : r.Rearranged r') :
    SelectDraft.ofRecord? r = SelectDraft.ofRecord? r' := by
  have hterms {s s' : Slot} (hs : s.Rearranged s') :
      s.orDefault [] TermDraft.listOf? = s'.orDefault [] TermDraft.listOf? :=
    hs.orDefault [] TermDraft.orderless_listOf?
  have hname {s s' : Slot} (hs : s.Rearranged s') :
      s.lenient text? = s'.lenient text? := hs.lenient orderless_text?
  have hcount {s s' : Slot} (hs : s.Rearranged s') :
      s.lenient (natBelow? UInt64.size) = s'.lenient (natBelow? UInt64.size) :=
    hs.lenient (orderless_natBelow? _)
  have hconditions := ConditionDraft.orderless_ofDocument?.listOf?
  refine layout.if_fits h ?_
  refine layout.bind_field h hterms fun fields => ?_
  refine layout.bind_field h hname fun measurement => ?_
  refine layout.bind_field h hname fun policy => ?_
  refine layout.bind_field h (Slot.Rearranged.orDefault [] hconditions) fun conditions => ?_
  refine layout.bind_field h hterms fun groupBy => ?_
  refine layout.bind_field h hterms fun orderBy => ?_
  refine layout.bind_field h hcount fun limit => ?_
  refine layout.bind_field h hcount fun offset => ?_
  refine layout.bind_field h hcount fun seriesLimit => ?_
  refine layout.bind_field h hcount fun seriesOffset => ?_
  exact layout.bind_field h (Slot.Rearranged.lenient FillDraft.orderless_ofDocument?) fun _ => rfl

theorem DeleteDraft.ofRecord?_rearranged (h : r.Rearranged r') :
    DeleteDraft.ofRecord? r = DeleteDraft.ofRecord? r' := by
  have hconditions := ConditionDraft.orderless_ofDocument?.listOf?
  refine layout.if_fits h ?_
  refine layout.bind_field h (Slot.Rearranged.lenient orderless_text?) fun measurement => ?_
  exact layout.bind_field h (Slot.Rearranged.orDefault [] hconditions) fun _ => rfl

theorem RetentionPolicyDraft.ofRecord?_rearranged (h : r.Rearranged r') :
    RetentionPolicyDraft.ofRecord? r = RetentionPolicyDraft.ofRecord? r' := by
  refine layout.if_fits h ?_
  refine layout.bind_field h (Slot.Rearranged.required orderless_text?) fun name => ?_
  refine layout.bind_field h (Slot.Rearranged.optional orderless_text?) fun database => ?_
  refine layout.bind_field h (Slot.Rearranged.required orderless_text?) fun duration => ?_
  refine layout.bind_field h (Slot.Rearranged.required (orderless_natBelow? _))
    fun replication => ?_
  refine layout.bind_field h (Slot.Rearranged.optional orderless_text?) fun shardDuration => ?_
  exact layout.bind_field h (Slot.Rearranged.orDefault false orderless_bool?) fun _ => rfl

theorem KeysDraft.ofRecord?_rearranged (h : r.Rearranged r') :
    KeysDraft.ofRecord? r = KeysDraft.ofRecord? r' := by
  refine layout.if_fits h ?_
  refine layout.bind_field h (Slot.Rearranged.lenient orderless_text?) fun database => ?_
  refine layout.bind_field h (Slot.Rearranged.lenient orderless_text?) fun measurement => ?_
  exact layout.bind_field h (Slot.Rearranged.lenient orderless_text?) fun _ => rfl

namespace StatementDraft

theorem object?_rearranged (h : r.Rearranged r') (action : ObjectAction) :
    object? action r = object? action r' := by
  refine Layout.if_fits _ h ?_
  exact Layout.bind_field _ h (Slot.Rearranged.required orderless_text?) fun _ => rfl

theorem dropRetentionPolicy?_rearranged (h : r.Rearranged r') :
    dropRetentionPolicy? r = dropRetentionPolicy? r' := by
  refine Layout.if_fits _ h ?_
  refine Layout.bind_field _ h (Slot.Rearranged.required orderless_text?) fun name => ?_
  exact Layout.bind_field _ h (Slot.Rearranged.optional orderless_text?) fun _ => rfl

theorem list?_rearranged (h : r.Rearranged r') (what : Listing) : list? what r = list? what r' := by
  refine Layout.if_fits _ h ?_
  exact Layout.bind_field _ h (Slot.Rearranged.optional orderless_text?) fun _ => rfl

theorem ofRecord?_rearranged (h : r.Rearranged r') (kind : String) :
    ofRecord? kind r = ofRecord? kind r' := by
  unfold ofRecord?
  split
  · rw [SelectDraft.ofRecord?_rearranged h]
  · rw [DeleteDraft.ofRecord?_rearranged h]
  · exact object?_rearranged h _
  · exact object?_rearranged h _
  · exact object?_rearranged h _
  · rw [RetentionPolicyDraft.ofRecord?_rearranged h]
  · rw [RetentionPolicyDraft.ofRecord?_rearranged h]
  · exact dropRetentionPolicy?_rearranged h
  · exact list?_rearranged h _
  · exact list?_rearranged h _
  · exact Layout.if_fits _ h rfl
  · rw [KeysDraft.ofRecord?_rearranged h]
  · rw [KeysDraft.ofRecord?_rearranged h]
  · rfl

theorem orderless_ofDocument? : Orderless ofDocument? := by
  intro d d' h
  cases h with
  | same d => rfl
  | list h =>
      cases h with
      | nil => rfl
      | @cons d _ _ _ h hs =>
          cases h with
          | same =>
              cases d with
              | text kind => exact ofRecord?_rearranged (.placed hs) kind
              | _ => rfl
          | list _ => rfl
          | table _ => rfl
  | @table members members' h =>
      have hkind := h.filter (· == kindKey)
      have hothers := h.filter fun key => !(key == kindKey)
      unfold ofDocument?
      dsimp only
      rcases hkind.shape with ⟨hnone, hnone'⟩ | ⟨_, d, _, hone, hone', hd⟩ |
        ⟨⟨⟨_, d⟩, _, _, hmany⟩, ⟨_, d'⟩, _, _, hmany'⟩
      · rw [hnone, hnone']
      · rw [hone, hone']
        cases hd with
        | same =>
            cases d with
            | text kind => exact ofRecord?_rearranged (.keyed hothers) kind
            | _ => rfl
        | list _ => rfl
        | table _ => rfl
      · rw [hmany, hmany']
        cases d <;> cases d' <;> rfl

end StatementDraft

end Records

/-- A batch does not depend on the order of members anywhere in its document. -/
theorem Batch.orderless_ofDocument? : Orderless Batch.ofDocument? := by
  intro d d' h
  refine h.bind_record fun hr => layout.if_fits hr ?_
  exact layout.bind_field hr
    (Slot.Rearranged.orDefault [] StatementDraft.orderless_ofDocument?.listOf?) fun _ => rfl

end SeriesQuery
