/-
Drafts step by step.

A draft is turned into its statement by going through its parts in order.  A part that is given
makes one step, a part that is not makes none, and a part that means nothing ends everything with
its failure.  Building a draft reads all parts first and puts the statement down at once; since a
step sets only what its part is about, what the steps leave is the same, and since the parts are
read in the same order, so is the failure.  So whatever holds of statements that are put together
step by step holds of what a file gives.
-/
import SeriesQuery.Proofs.Draft.Conditions
import SeriesQuery.Proofs.Statement.Assembly

namespace SeriesQuery

open Composed

/-! ### Terms and conditions -/

/-- The step that terms lead to; none where there are no terms. -/
def givenTerms {T : Type} (step : List Fragment → T) (drafts : List TermDraft) :
    List (Composed T) :=
  if drafts.isEmpty then [] else [step <$> TermDraft.fragments drafts]

/-- The part that the terms are for becomes what they mean. -/
theorem takeSteps_givenTerms {S T : Type} (apply : S → T → S) (step : List Fragment → T)
    (set : S → List Fragment → S) (hstep : ∀ s ts, apply s (step ts) = set s ts) {start : S}
    (hstart : set start [] = start) (drafts : List TermDraft) :
    takeSteps apply start (givenTerms step drafts) =
      set start <$> TermDraft.fragments drafts := by
  cases drafts with
  | nil =>
      show Except.ok start = Except.ok (set start [])
      rw [hstart]
  | cons t drafts =>
      show takeSteps apply start [step <$> TermDraft.fragments (t :: drafts)] = _
      rw [takeSteps_singleton, Functor.map_map]
      exact congrArg (· <$> _) (funext (hstep start))

/-- The conditions leave their clause, wherever calls change nothing but the clause. -/
theorem takeSteps_calls {S T : Type} {apply : S → T → S} {set : S → WhereClause → S}
    {call? : T → Option WhereClause.Call} (h : WhereClause.Separated apply set call?)
    {step : WhereClause.Call → T} (hstep : ∀ call, call? (step call) = some call) {start : S}
    (hstart : set start .none = start) (drafts : List ConditionDraft) :
    takeSteps apply start ((ConditionDraft.calls drafts).map (step <$> ·)) =
      set start <$> ConditionDraft.clause drafts := by
  rw [ConditionDraft.clause_eq_takeSteps,
    ← takeSteps_map (fun cs call => h.apply_call (hstep call) start cs), hstart]

/-! ### SELECT -/

/-- The step that a call of the WHERE clause is. -/
def Select.Step.ofCall {F : Type} : WhereClause.Call → Step F
  | .only c => .only c
  | .join k c => .join k c

theorem Select.Step.call?_ofCall {F : Type} (call : WhereClause.Call) :
    (ofCall call : Step F).call? = some call := by
  cases call <;> rfl

/-- The measurement and its policy become what is given; where nothing is, they stay. -/
theorem Select.takeSteps_source (s : Select Fragment) (measurement policy : Option Fragment) :
    takeSteps apply s
        (given .measurement .ok measurement ++ given .retentionPolicy .ok policy) =
      .ok { s with
        measurement := measurement.or s.measurement
        retentionPolicy := policy.or s.retentionPolicy } := by
  cases measurement <;> cases policy <;> rfl

/-- The counts become what is given; where nothing is, they stay. -/
theorem Select.takeSteps_counts (s : Select Fragment)
    (limit offset seriesLimit seriesOffset : Option Nat) :
    takeSteps apply s
        (given .limit .ok limit ++ given .offset .ok offset ++
          given .seriesLimit .ok seriesLimit ++ given .seriesOffset .ok seriesOffset) =
      .ok { s with
        limit := limit.or s.limit
        offset := offset.or s.offset
        seriesLimit := seriesLimit.or s.seriesLimit
        seriesOffset := seriesOffset.or s.seriesOffset } := by
  cases limit <;> cases offset <;> cases seriesLimit <;> cases seriesOffset <;> rfl

namespace SelectDraft

/-- The steps that the parts of a SELECT make, in order. -/
def steps (s : SelectDraft) (settings : Settings) : List (Composed (Select.Step Fragment)) :=
  (given .measurement .ok (s.measurement.map .name) ++
    given .retentionPolicy .ok ((s.retentionPolicy <|> settings.retentionPolicy).map .name)) ++
  (ConditionDraft.calls s.conditions).map (Select.Step.ofCall <$> ·) ++
  givenTerms .groupBy s.groupBy ++
  givenTerms .orderBy s.orderBy ++
  (given .limit .ok s.limit ++ given .offset .ok s.offset ++
    given .seriesLimit .ok s.seriesLimit ++ given .seriesOffset .ok s.seriesOffset) ++
  given .fill FillDraft.fill s.fill

/-- Taking the steps one at a time builds the SELECT. -/
theorem build_eq_takeSteps (s : SelectDraft) (settings : Settings) :
    s.build settings = TermDraft.fragments s.fields >>= fun fields =>
      takeSteps Select.apply (Select.ofFields fields) (s.steps settings) := by
  unfold build steps
  refine bind_congr fun fields => ?_
  rw [takeSteps_append, takeSteps_append, takeSteps_append, takeSteps_append, takeSteps_append,
    Select.takeSteps_source, ok_bind,
    takeSteps_calls Select.separated Select.Step.call?_ofCall rfl]
  simp only [map_eq_pure_bind, bind_assoc, pure_bind]
  refine bind_congr fun conditions => ?_
  rw [takeSteps_givenTerms Select.apply .groupBy (fun s ts => { s with groupBy := ts })
    (fun _ _ => rfl) rfl]
  simp only [map_eq_pure_bind, bind_assoc, pure_bind]
  refine bind_congr fun groupBy => ?_
  rw [takeSteps_givenTerms Select.apply .orderBy (fun s ts => { s with orderBy := ts })
    (fun _ _ => rfl) rfl]
  simp only [map_eq_pure_bind, bind_assoc, pure_bind]
  refine bind_congr fun orderBy => ?_
  rw [Select.takeSteps_counts, ok_bind, takeSteps_given Select.apply .fill
    (fun s f => { s with fill := f.or s.fill }) (fun _ _ => rfl) fun _ => rfl]
  simp only [map_eq_pure_bind, Select.ofFields, Select.withConditions, Option.or_none]

end SelectDraft

/-! ### DELETE -/

/-- The step that a call of the WHERE clause is. -/
def Delete.Step.ofCall {F : Type} : WhereClause.Call → Step F
  | .only c => .only c
  | .join k c => .join k c

theorem Delete.Step.call?_ofCall {F : Type} (call : WhereClause.Call) :
    (ofCall call : Step F).call? = some call := by
  cases call <;> rfl

namespace DeleteDraft

/-- The steps that the parts of a DELETE make, in order. -/
def steps (s : DeleteDraft) : List (Composed (Delete.Step Fragment)) :=
  given .measurement .ok (s.measurement.map .name) ++
  (ConditionDraft.calls s.conditions).map (Delete.Step.ofCall <$> ·)

/-- Taking the steps one at a time builds the DELETE. -/
theorem build_eq_takeSteps (s : DeleteDraft) :
    s.build = takeSteps Delete.apply Delete.empty s.steps := by
  unfold build steps
  have hmeasurement : takeSteps Delete.apply Delete.empty
      (given .measurement .ok (s.measurement.map Fragment.name)) =
        .ok ⟨s.measurement.map Fragment.name, .none⟩ := by
    cases s.measurement <;> rfl
  rw [takeSteps_append, hmeasurement, ok_bind,
    takeSteps_calls Delete.separated Delete.Step.call?_ofCall rfl, map_eq_pure_bind]
  rfl

end DeleteDraft

/-! ### Retention policies -/

namespace RetentionPolicyDraft

/-- The steps that the parts of a retention policy make, in order. -/
def steps (s : RetentionPolicyDraft) (isAlter : Bool) : List (Composed RetentionPolicy.Step) :=
  given .shardDuration Duration.parse s.shardDuration ++
  (if s.isDefault then [.ok .makeDefault] else []) ++
  (if isAlter then [.ok .alter] else [])

/-- Taking the steps one at a time, from a policy with the database and the duration, builds the
    policy. -/
theorem build_eq_takeSteps (s : RetentionPolicyDraft) (settings : Settings) (isAlter : Bool) :
    s.build settings isAlter =
      settings.requireDatabase s.database >>= fun database =>
        Duration.parse s.duration >>= fun duration =>
          takeSteps RetentionPolicy.apply
            (RetentionPolicy.create (.name s.name) (.name database) duration s.replication)
            (s.steps isAlter) := by
  unfold build steps
  refine bind_congr fun database => bind_congr fun duration => ?_
  rw [takeSteps_append, takeSteps_append, takeSteps_given RetentionPolicy.apply .shardDuration
    (fun p d => { p with shardDuration := d.or p.shardDuration }) (fun _ _ => rfl) fun _ => rfl,
    map_eq_pure_bind, bind_assoc, bind_assoc]
  refine bind_congr fun shardDuration => ?_
  rw [pure_bind]
  cases shardDuration <;> cases s.isDefault <;> cases isAlter <;> rfl

end RetentionPolicyDraft

/-! ### Keys -/

namespace KeysDraft

/-- The steps that the parts of a source of keys make, in order. -/
def steps (s : KeysDraft) (settings : Settings) : List (KeysScope.Step Fragment) :=
  (s.database <|> settings.database).toList.map (.database ∘ .name) ++
  s.measurement.toList.map (.measurement ∘ .name) ++
  (s.effectivePolicy settings).toList.map (.retentionPolicy ∘ .name)

/-- Taking the steps leaves the source of keys. -/
theorem build_eq_applyAll (s : KeysDraft) (settings : Settings) :
    s.build settings = KeysScope.everywhere.applyAll (s.steps settings) := by
  unfold build steps
  cases (s.database <|> settings.database) <;> cases s.measurement <;>
    cases s.effectivePolicy settings <;> rfl

end KeysDraft

/-! ### Statements -/

namespace StatementDraft

/-- How a draft puts its statement together, if it does so by steps: what it starts with and the
    steps of its parts, or the first failure among them. -/
def assembly? (settings : Settings) : StatementDraft → Option (Composed Assembly)
  | select s => some do
    let fields ← TermDraft.fragments s.fields
    return .select fields (← (s.steps settings).mapM id)
  | delete s => some do
    return .delete (← s.steps.mapM id)
  | retentionPolicy s isAlter => some do
    let database ← settings.requireDatabase s.database
    let duration ← Duration.parse s.duration
    return .retentionPolicy (.name s.name) (.name database) duration s.replication
      (← (s.steps isAlter).mapM id)
  | list what database =>
    some (.ok (.list what ((database <|> settings.database).toList.map .name)))
  | showKeys kind s => some (.ok (.showKeys kind (s.steps settings)))
  | object _ _ | dropRetentionPolicy _ _ | showDatabases => none

/--
**What a draft builds is what its steps leave.**  For every kind of statement that is put together
by steps, building the draft under any settings gives the statement that the steps of its parts
leave, or the first failure among them.
-/
theorem build_eq_assembly {settings : Settings} {d : StatementDraft} {a : Composed Assembly}
    (h : d.assembly? settings = some a) : d.build settings = Assembly.statement <$> a := by
  cases d with
  | select s =>
      cases h
      show Statement.select <$> s.build settings = _
      simp only [s.build_eq_takeSteps, takeSteps_eq, map_eq_pure_bind, bind_assoc, pure_bind]
      rfl
  | delete s =>
      cases h
      show Statement.delete <$> s.build = _
      simp only [s.build_eq_takeSteps, takeSteps_eq, map_eq_pure_bind, bind_assoc, pure_bind]
      rfl
  | retentionPolicy s isAlter =>
      cases h
      show Statement.retentionPolicy <$> s.build settings isAlter = _
      simp only [s.build_eq_takeSteps, takeSteps_eq, map_eq_pure_bind, bind_assoc, pure_bind]
      rfl
  | list what database =>
      cases h
      show Except.ok (Statement.list what ((database <|> settings.database).map Fragment.name)) = _
      cases (database <|> settings.database) <;> rfl
  | showKeys kind s =>
      cases h
      show Except.ok (Statement.showKeys kind (s.build settings)) = _
      rw [s.build_eq_applyAll]
      rfl
  | object _ _ => cases h
  | dropRetentionPolicy _ _ => cases h
  | showDatabases => cases h

end StatementDraft

end SeriesQuery
