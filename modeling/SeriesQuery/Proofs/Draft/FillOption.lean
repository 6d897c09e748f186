/-
Fill options in statement files.

The fill option of a SELECT is read last, meant last and written last.  Add one to a SELECT that
composes without: wherever its member stands in the table, the text is what it was with the option
behind it, if the option is one at all.
-/
import SeriesQuery.Proofs.Draft.OneCondition
import SeriesQuery.Proofs.Fill
import SeriesQuery.Proofs.Json.UnknownKeys

namespace SeriesQuery

section Fill

variable {before after : List (String × Document)} {d : Document} {s : SelectDraft}

/-! ### A fill option in a record -/

theorem Layout.fits_insert_of_mem {l : Layout} {name : String} (hname : name ∈ l.fields) :
    l.fits (.keyed (before ++ (name, d) :: after)) = l.fits (.keyed (before ++ after)) := by
  simp [fits, hname]

theorem filter_eq_nil_of_ne {members : List (String × Document)} {name : String}
    (h : ∀ m ∈ members, m.1 ≠ name) : members.filter (fun (key, _) => key == name) = [] :=
  List.filter_eq_nil_iff.mpr fun m hm => by simpa using h m hm

/-- The only member with its key says what the record has there. -/
theorem Layout.slot?_of_only {l : Layout} {name : String} (h : ∀ m ∈ before ++ after, m.1 ≠ name) :
    l.slot? (.keyed (before ++ after)) name = some .missing ∧
      l.slot? (.keyed (before ++ (name, d) :: after)) name = some (.given d) := by
  have hbefore := filter_eq_nil_of_ne fun m hm => h m (List.mem_append_left after hm)
  have hafter := filter_eq_nil_of_ne fun m hm => h m (List.mem_append_right before hm)
  constructor
  · unfold slot?
    dsimp only
    rw [List.filter_append, hbefore, hafter, List.append_nil]
  · unfold slot?
    dsimp only
    rw [List.filter_append, hbefore, List.nil_append, List.filter_cons_of_pos (by simp), hafter]

/-- The SELECT that a record gives apart from its fill option. -/
def SelectDraft.ofOthers? (r : Record) : Option SelectDraft := do
  let terms := Slot.orDefault [] TermDraft.listOf?
  let count := Slot.lenient (Document.natBelow? UInt64.size)
  return {
    fields := ← terms (← layout.slot? r "fields")
    measurement := ← (← layout.slot? r "from").lenient Document.text?
    retentionPolicy := ← (← layout.slot? r "retention_policy").lenient Document.text?
    conditions := ← (← layout.slot? r "where").orDefault []
      (Document.listOf? ConditionDraft.ofDocument?)
    groupBy := ← terms (← layout.slot? r "group_by")
    orderBy := ← terms (← layout.slot? r "order_by")
    limit := ← count (← layout.slot? r "limit")
    offset := ← count (← layout.slot? r "offset")
    seriesLimit := ← count (← layout.slot? r "slimit")
    seriesOffset := ← count (← layout.slot? r "soffset")
    fill := none }

/-- The fill option is read last. -/
theorem SelectDraft.ofRecord?_eq (r : Record) : ofRecord? r =
    if layout.fits r then do
      let s ← ofOthers? r
      let fill ← (← layout.slot? r "fill").lenient FillDraft.ofDocument?
      return { s with fill := fill }
    else none := by
  unfold ofRecord? ofOthers?
  simp only [bind_assoc, pure_bind]

/-- The others do not depend on the fill option. -/
theorem SelectDraft.ofOthers?_fill :
    ofOthers? (.keyed (before ++ ("fill", d) :: after)) = ofOthers? (.keyed (before ++ after)) := by
  have hslot {field : String} (hfield : "fill" ≠ field) :
      layout.slot? (.keyed (before ++ ("fill", d) :: after)) field =
        layout.slot? (.keyed (before ++ after)) field := Layout.slot?_insert hfield
  unfold ofOthers?
  rw [hslot (by decide), hslot (by decide), hslot (by decide), hslot (by decide), hslot (by decide),
    hslot (by decide), hslot (by decide), hslot (by decide), hslot (by decide), hslot (by decide)]

/-- A fill option that is added to a SELECT changes nothing else. -/
theorem SelectDraft.ofRecord?_fill (hkeys : ∀ m ∈ before ++ after, m.1 ≠ "fill")
    {f : FillDraft} (hd : FillDraft.ofDocument? d = some f)
    (h : ofRecord? (.keyed (before ++ after)) = some s) :
    s.fill = none ∧
      ofRecord? (.keyed (before ++ ("fill", d) :: after)) = some { s with fill := some f } := by
  obtain ⟨hmissing, hgiven⟩ := Layout.slot?_of_only (l := layout) (d := d) hkeys
  have hnone : Slot.lenient FillDraft.ofDocument? .missing = some none := rfl
  have hfill : Slot.lenient FillDraft.ofDocument? (.given d) = some (some f) := by
    have hnull : d ≠ .null := by
      rintro rfl
      cases hd
    have hread : Document.nullable? FillDraft.ofDocument? d =
        (FillDraft.ofDocument? d).map some := by
      cases d <;> first | rfl | exact absurd rfl hnull
    exact hread.trans (congrArg (Option.map some) hd)
  rw [ofRecord?_eq] at h ⊢
  rw [Layout.fits_insert_of_mem (by decide), hgiven, ofOthers?_fill]
  rw [hmissing] at h
  split at h
  · rename_i hfits
    obtain ⟨others, hothers, h⟩ := Option.bind_eq_some_iff.mp h
    obtain rfl : { others with fill := none } = s := Option.some.inj h
    refine ⟨rfl, ?_⟩
    rw [if_pos hfits, hothers]
    show (Slot.lenient FillDraft.ofDocument? (.given d) >>= fun fill =>
      some { others with fill := fill }) = _
    rw [hfill]
    rfl
  · cases h

/-- The fill option is meant last. -/
theorem SelectDraft.build_eq (s : SelectDraft) (settings : Settings) : s.build settings = do
    let q ← { s with fill := none }.build settings
    let fill ← s.fill.mapM FillDraft.fill
    return { q with fill := fill } := by
  unfold build
  simp only [Option.mapM_none, bind_assoc, pure_bind]

/-! ### A fill option in a statement -/

namespace StatementDraft

/-- Only a SELECT is read as one. -/
theorem ofRecord?_of_select {kind : String} {r : Record} (h : ofRecord? kind r = some (select s)) :
    SelectDraft.ofRecord? r = some s ∧
      ∀ r', ofRecord? kind r' = select <$> SelectDraft.ofRecord? r' := by
  unfold ofRecord? at h
  split at h
  · obtain ⟨s', hs', hselect⟩ := Option.map_eq_some_iff.mp h
    cases hselect
    exact ⟨hs', fun _ => rfl⟩
  · obtain ⟨_, -, hother⟩ := Option.map_eq_some_iff.mp h
    cases hother
  · obtain ⟨_, hother⟩ := exists_of_object? h
    cases hother
  · obtain ⟨_, hother⟩ := exists_of_object? h
    cases hother
  · obtain ⟨_, hother⟩ := exists_of_object? h
    cases hother
  · obtain ⟨_, -, hother⟩ := Option.map_eq_some_iff.mp h
    cases hother
  · obtain ⟨_, -, hother⟩ := Option.map_eq_some_iff.mp h
    cases hother
  · obtain ⟨_, _, hother⟩ := exists_of_dropRetentionPolicy? h
    cases hother
  · obtain ⟨_, hother⟩ := exists_of_list? h
    cases hother
  · obtain ⟨_, hother⟩ := exists_of_list? h
    cases hother
  · split at h <;> cases h
  · obtain ⟨_, -, hother⟩ := Option.map_eq_some_iff.mp h
    cases hother
  · obtain ⟨_, -, hother⟩ := Option.map_eq_some_iff.mp h
    cases hother
  · cases h

/-- A fill option that is added to the table of a SELECT changes nothing else. -/
theorem ofDocument?_fill (hkeys : ∀ m ∈ before ++ after, m.1 ≠ "fill")
    {f : FillDraft} (hd : FillDraft.ofDocument? d = some f)
    (h : ofDocument? (.table (before ++ after)) = some (select s)) :
    s.fill = none ∧ ofDocument? (.table (before ++ ("fill", d) :: after)) =
      some (select { s with fill := some f }) := by
  have hothers : (before ++ ("fill", d) :: after).filter (fun (key, _) => !(key == kindKey)) =
      before.filter (fun (key, _) => !(key == kindKey)) ++
        ("fill", d) :: after.filter fun (key, _) => !(key == kindKey) := by
    have hkind : "fill" ≠ kindKey := by decide
    rw [List.filter_append, List.filter_cons_of_pos (by simpa using hkind)]
  unfold ofDocument? at h ⊢
  dsimp only at h ⊢
  rw [filter_keys_insert (p := (· == kindKey)) (by decide), hothers]
  split at h
  · rename_i kind hone
    rw [hone]
    rw [List.filter_append] at h
    obtain ⟨hs, hselect⟩ := ofRecord?_of_select h
    have hkeys' : ∀ m ∈ before.filter (fun (key, _) => !(key == kindKey)) ++
        after.filter (fun (key, _) => !(key == kindKey)), m.1 ≠ "fill" := by
      intro m hm
      rw [← List.filter_append] at hm
      exact hkeys m (List.mem_of_mem_filter hm)
    obtain ⟨hnone, hs'⟩ := SelectDraft.ofRecord?_fill hkeys' hd hs
    refine ⟨hnone, ?_⟩
    show ofRecord? kind _ = _
    rw [hselect, hs']
    rfl
  · cases h

/-- The fill option is written last. -/
theorem compile_withFill {settings : Settings} {t option : String} {f : FillDraft}
    (hnone : s.fill = none) (ht : (select s).compile settings = .ok t)
    (hf : f.fill = .ok (.number option)) (hfinite : (Fill.number option).Accepted) :
    (select { s with fill := some f }).compile settings = .ok (t ++ " fill(" ++ option ++ ")") := by
  have hs : { s with fill := none } = s := by
    rw [← hnone]
  have hplain := s.build_eq settings
  have hfilled := SelectDraft.build_eq { s with fill := some f } settings
  rw [hnone] at hplain
  dsimp only at hfilled
  rw [hs] at hplain hfilled
  rw [compile_select] at ht ⊢
  obtain ⟨q, hq, hcompile⟩ := Composed.bind_eq_ok_iff.mp ht
  rw [hq] at hplain hfilled
  have hqfill : { q with fill := none } = q := (Except.ok.inj hplain).symm
  rw [hfilled, Composed.ok_bind, Option.mapM_some, hf]
  show (Statement.select { q with fill := some (.number option) }).compile = _
  rw [Select.compile_withFill, hqfill, hcompile, Fill.compile_of_accepted hfinite]
  rfl

end StatementDraft

end Fill

/-! ### A fill option in a file -/

namespace Json

variable {before after : List (Quoted × Tree)} {key : Quoted} {value : Tree}

theorem exists_key_of_readMembers {depth : Nat} {members : List (Quoted × Tree)}
    {ds : List (String × Document)} (h : readMembers depth members = some ds) :
    ∀ m ∈ ds, ∃ member ∈ members, member.1.read = some m.1 := by
  induction ds generalizing members with
  | nil => exact List.forall_mem_nil _
  | cons m ds ih =>
      obtain ⟨name, d⟩ := m
      obtain ⟨key, tree, rest, rfl, hkey, -, hrest⟩ := exists_of_readMembers_cons h
      refine List.forall_mem_cons.mpr ⟨⟨(key, tree), List.mem_cons_self, hkey⟩, fun m hm => ?_⟩
      obtain ⟨member, hmember, hread⟩ := ih hrest m hm
      exact ⟨member, List.mem_cons_of_mem _ hmember, hread⟩

/-- A fill option that is added to the tree of a SELECT changes nothing else. -/
theorem draft?_fill {d : Document} {f : FillDraft} {s : SelectDraft}
    (hkey : key.read = some "fill") (hkeys : ∀ m ∈ before ++ after, m.1.read ≠ some "fill")
    (hread : value.read (maxDepth - 3) = some d) (hd : FillDraft.ofDocument? d = some f)
    (h : draft? (.table (before ++ after)) = some (.select s)) :
    s.fill = none ∧ draft? (.table (before ++ (key, value) :: after)) =
      some (.select { s with fill := some f }) := by
  have hdraft (members : List (Quoted × Tree)) :
      draft? (.table members) =
        (readMembers (maxDepth - 3) members).map Document.table >>=
          StatementDraft.ofDocument? := rfl
  rw [hdraft] at h ⊢
  rw [readMembers_insert _ hkey, hread]
  cases hmembers : readMembers (maxDepth - 3) (before ++ after) with
  | none =>
      rw [hmembers] at h
      cases h
  | some members =>
      have hnames : ∀ m ∈ members, m.1 ≠ "fill" := by
        intro m hm hfill
        obtain ⟨member, hmember, hname⟩ := exists_key_of_readMembers hmembers m hm
        exact hkeys member hmember (hfill ▸ hname)
      rw [hmembers] at h
      rw [readMembers_append] at hmembers
      obtain ⟨ds, hds, hmembers⟩ := Option.bind_eq_some_iff.mp hmembers
      obtain ⟨ds', hds', hmembers⟩ := Option.bind_eq_some_iff.mp hmembers
      obtain rfl : ds ++ ds' = members := Option.some.inj hmembers
      rw [hds, hds']
      exact StatementDraft.ofDocument?_fill hnames hd h

/-- What the value is written as in the place of a fill option, in any file with a SELECT that
    composes without one. -/
def FillsWith (value : Tree) (option : String) : Prop :=
  ∀ (form : BatchForm) (before after : List (Quoted × Tree)) (key : Quoted) (s : SelectDraft)
    (settings : Settings) (t text : String), key.read = some "fill" →
    (∀ m ∈ before ++ after, m.1.read ≠ some "fill") →
    draft? (.table (before ++ after)) = some (.select s) →
    (StatementDraft.select s).compile settings = .ok t →
    (form.tree [.table (before ++ (key, value) :: after)]).WrittenBy text →
    Batch.ofJson text >>= Batch.compile settings = .ok [t ++ " fill(" ++ option ++ ")"]

/-- **A fill option of a file is written behind the statement.** -/
theorem fillsWith_of_read {d : Document} {f : FillDraft} {option : String}
    (hread : value.read (maxDepth - 3) = some d) (hd : FillDraft.ofDocument? d = some f)
    (hf : f.fill = .ok (.number option)) (hfinite : (Fill.number option).Accepted) :
    FillsWith value option := by
  intro form before after key s settings t text hkey hkeys hs ht htext
  obtain ⟨hnone, hdraft⟩ := draft?_fill hkey hkeys hread hd hs
  have hdrafts : [Tree.table (before ++ (key, value) :: after)].mapM draft? =
      some [.select { s with fill := some f }] := by
    rw [List.mapM_cons, List.mapM_nil, hdraft]
    rfl
  rw [ofJson_of_writtenBy htext, hdrafts]
  show List.mapM (StatementDraft.compile settings) [_] = _
  rw [List.mapM_cons, List.mapM_nil, StatementDraft.compile_withFill hnone ht hf hfinite]
  rfl

/-- No value is written in two ways. -/
theorem FillsWith.unique {option option' : String} (h : FillsWith value option)
    (h' : FillsWith value option') : option = option' := by
  let plain := [(quotedOf "kind", textTree "select"), (quotedOf "from", textTree "m")]
  have hkeys : ∀ m ∈ plain ++ [], m.1.read ≠ some "fill" := by decide
  have hplain : draft? (.table (plain ++ [])) = some (.select (.everything "m" [])) := rfl
  have hcompile : (StatementDraft.select (.everything "m" [])).compile Settings.empty =
      .ok "SELECT * FROM \"m\"" := rfl
  have htext := Tree.writtenBy_compact
    (BatchForm.placed.tree [.table (plain ++ (quotedOf "fill", value) :: [])])
  have hsame := (h .placed plain [] _ _ _ _ _ (read_quotedOf "fill") hkeys hplain hcompile
    htext).symm.trans (h' .placed plain [] _ _ _ _ _ (read_quotedOf "fill") hkeys hplain hcompile
    htext)
  simpa using hsame

end Json

/-- What the option is written as in any SELECT that composes without one. -/
def Select.FillsWith (f : Fill) (option : String) : Prop :=
  ∀ (q : Select Fragment) (t : String), (Statement.select { q with fill := none }).compile = .ok t →
    (Statement.select (q.apply (.fill f))).compile = .ok (t ++ " fill(" ++ option ++ ")")

theorem Select.fillsWith_text {f : Fill} (h : f.Accepted) : FillsWith f f.text := by
  intro q t ht
  show (Statement.select { q with fill := some f }).compile = _
  rw [compile_withFill, ht, Fill.compile_of_accepted h]
  rfl

end SeriesQuery
