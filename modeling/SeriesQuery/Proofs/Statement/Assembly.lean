/-
Putting statements together.

A statement starts with what it cannot do without and grows by steps.  Steps for different parts
do not touch each other and a step forgets what its part was before, so of the steps for a part
only the last one counts; of the calls of the WHERE clause the last that starts over and those
behind it.  Two lists of steps that agree on these leave the same statement.  What a step brought
that a later one overwrote is not in the statement any more, so whether it would have compiled is
never asked.
-/
import SeriesQuery.Fragment
import SeriesQuery.Proofs.Statement.LastStep
import SeriesQuery.Proofs.WhereClause.Section

namespace SeriesQuery

/-! ### The part that a step sets -/

namespace Select

variable {F : Type}

/-- The parts of a SELECT that a step sets to something new. -/
inductive Part where
  | measurement
  | retentionPolicy
  | groupBy
  | orderBy
  | limit
  | offset
  | seriesLimit
  | seriesOffset
  | fill
  deriving DecidableEq

/-- The part that a step sets; none for a call of the WHERE clause. -/
def Step.part? : Step F → Option Part
  | measurement _ => some .measurement
  | retentionPolicy _ => some .retentionPolicy
  | groupBy _ => some .groupBy
  | orderBy _ => some .orderBy
  | limit _ => some .limit
  | offset _ => some .offset
  | seriesLimit _ => some .seriesLimit
  | seriesOffset _ => some .seriesOffset
  | fill _ => some .fill
  | only _ | join _ _ => none

theorem setsParts : SetsParts (apply (F := F)) Step.part? where
  comm := by
    intro t u k l ht hu hne s
    cases t <;> cases ht <;> cases u <;> cases hu <;> first | rfl | exact absurd rfl hne
  absorb := by
    intro t u k ht hu s
    cases t <;> cases ht <;> cases u <;> cases hu <;> rfl

/-- A step sets a part or calls the WHERE clause. -/
theorem Step.call?_isNone (step : Step F) : step.call?.isNone = step.part?.isSome := by
  cases step <;> rfl

end Select

namespace Delete

variable {F : Type}

/-- The one part that a step sets is the measurement. -/
def Step.part? : Step F → Option Unit
  | measurement _ => some ()
  | only _ | join _ _ => none

theorem setsParts : SetsParts (apply (F := F)) Step.part? where
  comm := by
    intro t u k l ht hu hne s
    exact absurd rfl hne
  absorb := by
    intro t u k ht hu s
    cases t with
    | measurement m => cases u <;> first | rfl | cases hu
    | only c => cases ht
    | join k c => cases ht

theorem Step.call?_isNone (step : Step F) : step.call?.isNone = step.part?.isSome := by
  cases step <;> rfl

end Delete

namespace RetentionPolicy

variable {F : Type}

/-- The parts of a retention policy that a step sets. -/
inductive Part where
  | shardDuration
  | isAlter
  | isDefault
  deriving DecidableEq

/-- The part that a step sets. -/
def Step.part : Step → Part
  | shardDuration _ => .shardDuration
  | alter => .isAlter
  | makeDefault => .isDefault

theorem setsParts : SetsParts (apply (F := F)) (some ∘ Step.part) where
  comm := by
    intro t u k l ht hu hne s
    cases t <;> cases ht <;> cases u <;> cases hu <;> first | rfl | exact absurd rfl hne
  absorb := by
    intro t u k ht hu s
    cases t <;> cases ht <;> cases u <;> cases hu <;> rfl

end RetentionPolicy

namespace KeysScope

variable {F : Type}

/-- The parts of a source of keys. -/
inductive Part where
  | database
  | measurement
  | retentionPolicy
  deriving DecidableEq

/-- The part that a step sets. -/
def Step.part : Step F → Part
  | database _ => .database
  | measurement _ => .measurement
  | retentionPolicy _ => .retentionPolicy

theorem setsParts : SetsParts (apply (F := F)) (some ∘ Step.part) where
  comm := by
    intro t u k l ht hu hne s
    cases t <;> cases ht <;> cases u <;> cases hu <;> first | rfl | exact absurd rfl hne
  absorb := by
    intro t u k ht hu s
    cases t <;> cases ht <;> cases u <;> cases hu <;> rfl

end KeysScope

/-! ### Steps that leave the same -/

section

variable {S T K : Type} [DecidableEq K]

/-- Two lists of steps end in the same step for each part, and the same calls of the WHERE clause
    count in them. -/
structure SameLastSteps (part? : T → Option K) (call? : T → Option WhereClause.Call)
    (ts us : List T) : Prop where
  last : ∀ k, lastOf part? k ts = lastOf part? k us
  calls : WhereClause.Call.current (ts.filterMap call?) =
    WhereClause.Call.current (us.filterMap call?)

/-- Later steps take a step's effect away: one sets the same part, or, for a call of the WHERE
    clause, one starts the clause over. -/
structure Overwritten (part? : T → Option K) (call? : T → Option WhereClause.Call) (step : T)
    (after : List T) : Prop where
  part : ∀ k, part? step = some k → ∃ later ∈ after, part? later = some k
  call : (call? step).isSome → ∃ call ∈ after.filterMap call?, call.startsOver = true

/-- Calls before one that starts over do not count. -/
theorem WhereClause.Call.current_append {before after : List WhereClause.Call}
    (h : after.any startsOver = true) : current (before ++ after) = current after := by
  induction before with
  | nil => rfl
  | cons call before ih =>
      have hany : (before ++ after).any startsOver = true := by
        rw [List.any_append, h, Bool.or_true]
      rw [List.cons_append, current, if_pos hany, ih]

/-- Without a step that is overwritten the same steps count. -/
theorem Overwritten.sameLastSteps {part? : T → Option K} {call? : T → Option WhereClause.Call}
    {before after : List T} {step : T} (h : Overwritten part? call? step after) :
    SameLastSteps part? call? (before ++ step :: after) (before ++ after) where
  last := fun _ => lastOf_drop h.part
  calls := by
    rw [List.filterMap_append, List.filterMap_append]
    cases hcall : call? step with
    | none => rw [List.filterMap_cons_none hcall]
    | some call =>
        obtain ⟨later, hlater, hover⟩ := h.call (by rw [hcall]; rfl)
        have hany : (after.filterMap call?).any WhereClause.Call.startsOver = true :=
          List.any_eq_true.mpr ⟨later, hlater, hover⟩
        have hany' : (call :: after.filterMap call?).any WhereClause.Call.startsOver = true := by
          rw [List.any_cons, hany, Bool.or_true]
        rw [List.filterMap_cons_some hcall, WhereClause.Call.current_append hany,
          WhereClause.Call.current_append hany', WhereClause.Call.current, if_pos hany]

/-- The last step for each part and the calls that count leave all there is. -/
theorem SameLastSteps.foldl_eq {part? : T → Option K} {call? : T → Option WhereClause.Call}
    {ts us : List T} (h : SameLastSteps part? call? ts us) {apply : S → T → S}
    {set : S → WhereClause → S} (hsets : SetsParts apply part?)
    (hcalls : WhereClause.Separated apply set call?)
    (hnone : ∀ step, (call? step).isNone = (part? step).isSome) {start : S}
    (hstart : set start .none = start) : ts.foldl apply start = us.foldl apply start := by
  have hothers : (ts.filter fun step => (call? step).isNone).foldl apply start =
      (us.filter fun step => (call? step).isNone).foldl apply start := by
    simp only [hnone]
    exact hsets.foldl_filter_eq_of_lastOf h.last start
  rw [hcalls.foldl_start hstart ts, hcalls.foldl_start hstart us, hothers,
    WhereClause.applyAll_eq_of_current h.calls]

end

theorem Select.applyAll_eq_of_sameLastSteps {F : Type} (fields : List F)
    {steps steps' : List (Step F)} (h : SameLastSteps Step.part? Step.call? steps steps') :
    (ofFields fields).applyAll steps = (ofFields fields).applyAll steps' :=
  h.foldl_eq setsParts separated Step.call?_isNone rfl

theorem Delete.applyAll_eq_of_sameLastSteps {F : Type} {steps steps' : List (Step F)}
    (h : SameLastSteps Step.part? Step.call? steps steps') :
    (empty : Delete F).applyAll steps = empty.applyAll steps' :=
  h.foldl_eq setsParts separated Step.call?_isNone rfl

/-! ### Assemblies -/

/-- How a statement is put together: what it starts with, and the steps that follow. -/
inductive Assembly where
  | select (fields : List Fragment) (steps : List (Select.Step Fragment))
  | delete (steps : List (Delete.Step Fragment))
  | retentionPolicy (name database : Fragment) (duration : Duration) (replication : Nat)
      (steps : List RetentionPolicy.Step)
  /-- Each step names the database. -/
  | list (what : Listing) (databases : List Fragment)
  | showKeys (kind : KeyKind) (steps : List (KeysScope.Step Fragment))

namespace Assembly

/-- The statement that the steps leave. -/
def statement : Assembly → Statement Fragment
  | select fields steps => .select ((Select.ofFields fields).applyAll steps)
  | delete steps => .delete (Delete.empty.applyAll steps)
  | retentionPolicy name database duration replication steps =>
    .retentionPolicy ((RetentionPolicy.create name database duration replication).applyAll steps)
  | list what databases => .list what (databases.foldl (fun _ database => some database) none)
  | showKeys kind steps => .showKeys kind (KeysScope.everywhere.applyAll steps)

/-- The statement as text, or its first failure. -/
def compile (a : Assembly) : Composed String :=
  a.statement.compile

/-- Two assemblies start alike and agree on the steps that count. -/
inductive Agrees : Assembly → Assembly → Prop
  | select {fields : List Fragment} {steps steps' : List (Select.Step Fragment)}
      (h : SameLastSteps Select.Step.part? Select.Step.call? steps steps') :
      Agrees (select fields steps) (select fields steps')
  | delete {steps steps' : List (Delete.Step Fragment)}
      (h : SameLastSteps Delete.Step.part? Delete.Step.call? steps steps') :
      Agrees (delete steps) (delete steps')
  | retentionPolicy {name database : Fragment} {duration : Duration} {replication : Nat}
      {steps steps' : List RetentionPolicy.Step}
      (hshard : lastOf (some ∘ RetentionPolicy.Step.part) .shardDuration steps =
        lastOf (some ∘ RetentionPolicy.Step.part) .shardDuration steps')
      (halter : .alter ∈ steps ↔ .alter ∈ steps')
      (hdefault : .makeDefault ∈ steps ↔ .makeDefault ∈ steps') :
      Agrees (retentionPolicy name database duration replication steps)
        (retentionPolicy name database duration replication steps')
  | list {what : Listing} {databases databases' : List Fragment}
      (h : databases.getLast? = databases'.getLast?) :
      Agrees (list what databases) (list what databases')
  | showKeys {kind : KeyKind} {steps steps' : List (KeysScope.Step Fragment)}
      (h : ∀ part, lastOf (some ∘ KeysScope.Step.part) part steps =
        lastOf (some ∘ KeysScope.Step.part) part steps') :
      Agrees (showKeys kind steps) (showKeys kind steps')

/-- The second assembly lacks a step of the first that later steps overwrite. -/
inductive Drops : Assembly → Assembly → Prop
  | select {fields : List Fragment} {before after : List (Select.Step Fragment)}
      {step : Select.Step Fragment}
      (h : Overwritten Select.Step.part? Select.Step.call? step after) :
      Drops (select fields (before ++ step :: after)) (select fields (before ++ after))
  | delete {before after : List (Delete.Step Fragment)} {step : Delete.Step Fragment}
      (h : Overwritten Delete.Step.part? Delete.Step.call? step after) :
      Drops (delete (before ++ step :: after)) (delete (before ++ after))
  | retentionPolicy {name database : Fragment} {duration : Duration} {replication : Nat}
      {before after : List RetentionPolicy.Step} {step : RetentionPolicy.Step}
      (h : ∃ later ∈ after, later.part = step.part) :
      Drops (retentionPolicy name database duration replication (before ++ step :: after))
        (retentionPolicy name database duration replication (before ++ after))
  | list {what : Listing} {before after : List Fragment} {database : Fragment}
      (h : after ≠ []) :
      Drops (list what (before ++ database :: after)) (list what (before ++ after))
  | showKeys {kind : KeyKind} {before after : List (KeysScope.Step Fragment)}
      {step : KeysScope.Step Fragment} (h : ∃ later ∈ after, later.part = step.part) :
      Drops (showKeys kind (before ++ step :: after)) (showKeys kind (before ++ after))

/-- Assemblies that agree leave the same statement. -/
theorem statement_eq_of_agrees {a b : Assembly} (h : a.Agrees b) : a.statement = b.statement := by
  cases h with
  | @select fields steps steps' h =>
      exact congrArg Statement.select (Select.applyAll_eq_of_sameLastSteps fields h)
  | delete h => exact congrArg Statement.delete (Delete.applyAll_eq_of_sameLastSteps h)
  | @retentionPolicy name database duration replication steps steps' hshard halter hdefault =>
      refine congrArg Statement.retentionPolicy ?_
      refine RetentionPolicy.setsParts.foldl_eq_of_lastOf steps steps' (fun _ _ => rfl)
        (fun _ _ => rfl) (fun part => ?_) _
      cases part with
      | shardDuration => exact hshard
      | isAlter =>
          exact lastOf_eq_of_mem_iff
            (fun u => by cases u <;> simp [RetentionPolicy.Step.part]) halter
      | isDefault =>
          exact lastOf_eq_of_mem_iff
            (fun u => by cases u <;> simp [RetentionPolicy.Step.part]) hdefault
  | @list what databases databases' h =>
      have hlast (names : List Fragment) :
          names.foldl (fun _ database => some database) none = names.getLast? := by
        induction names using List.reverseRecOn with
        | nil => rfl
        | append_singleton names name ih => rw [List.foldl_concat, List.getLast?_concat]
      show Statement.list what _ = Statement.list what _
      rw [hlast, hlast, h]
  | @showKeys kind steps steps' h =>
      exact congrArg (Statement.showKeys kind)
        (KeysScope.setsParts.foldl_eq_of_lastOf steps steps' (fun _ _ => rfl) (fun _ _ => rfl) h _)

private theorem mem_drop {T : Type} {before after : List T} {step t : T}
    (h : step = t → t ∈ after) : t ∈ before ++ step :: after ↔ t ∈ before ++ after := by
  simp only [List.mem_append, List.mem_cons]
  constructor
  · rintro (hmem | rfl | hmem)
    · exact Or.inl hmem
    · exact Or.inr (h rfl)
    · exact Or.inr hmem
  · rintro (hmem | hmem)
    · exact Or.inl hmem
    · exact Or.inr (Or.inr hmem)

/-- An assembly agrees with itself without an overwritten step. -/
theorem Drops.agrees {a b : Assembly} (h : a.Drops b) : a.Agrees b := by
  cases h with
  | select h => exact .select h.sameLastSteps
  | delete h => exact .delete h.sameLastSteps
  | @retentionPolicy _ _ _ _ before after step h =>
      obtain ⟨later, hlater, hpart⟩ := h
      refine .retentionPolicy ?_ ?_ ?_
      · refine lastOf_drop fun part hstep => ⟨later, hlater, ?_⟩
        rw [← hstep]
        exact congrArg some hpart
      · exact mem_drop fun hstep => by
          subst hstep
          cases later <;> first | exact hlater | cases hpart
      · exact mem_drop fun hstep => by
          subst hstep
          cases later <;> first | exact hlater | cases hpart
  | @list _ before after _ h =>
      refine .list ?_
      rw [List.getLast?_append_of_ne_nil _ (List.cons_ne_nil _ _),
        List.getLast?_append_of_ne_nil _ h]
      exact List.getLast?_append_of_ne_nil [_] h
  | @showKeys _ before after step h =>
      obtain ⟨later, hlater, hpart⟩ := h
      refine .showKeys fun _ => lastOf_drop fun part hstep => ⟨later, hlater, ?_⟩
      rw [← hstep]
      exact congrArg some hpart

/--
**The last step for a part wins, and the order of steps for different parts is irrelevant.**  Two
assemblies that start alike, end in the same step for each part and in which the same calls of
the WHERE clause count compile to the same text or the same failure.  A step that later ones
overwrite may be left out, whatever it brings: it causes no failure.
-/
theorem last_step_wins :
    (∀ {a b : Assembly}, a.Agrees b → a.compile = b.compile) ∧
    ∀ {a b : Assembly}, a.Drops b → a.compile = b.compile := by
  have hagrees : ∀ {a b : Assembly}, a.Agrees b → a.compile = b.compile := by
    intro a b h
    unfold compile
    rw [statement_eq_of_agrees h]
  exact ⟨hagrees, fun h => hagrees h.agrees⟩

/-- A measurement that does not compile is overwritten, and the steps behind it are reordered. -/
theorem last_step_wins_over_failure :
    let failing : Fragment := .condition ⟨"", [.int 1]⟩
    let first := select [] [.limit 1, .measurement failing, .limit 2, .measurement (.name "m")]
    let second := select [] [.limit 1, .limit 2, .measurement (.name "m")]
    let third := select [] [.measurement (.name "m"), .limit 2]
    failing.compile = .error .emptyCondition ∧ first.Drops second ∧ second.Agrees third ∧
      first.compile = .ok "SELECT * FROM \"m\" LIMIT 2" := by
  intro failing first second third
  have hdrops : first.Drops second :=
    @Drops.select [] [.limit 1] [.limit 2, .measurement (.name "m")] (.measurement failing)
      ⟨fun k hk => ⟨.measurement (.name "m"), by simp, hk⟩, fun h => by cases h⟩
  have hagrees : second.Agrees third := by
    refine .select ⟨fun k => ?_, rfl⟩
    cases k <;> rfl
  refine ⟨rfl, hdrops, hagrees, ?_⟩
  calc first.compile = second.compile := last_step_wins.2 hdrops
    _ = third.compile := last_step_wins.1 hagrees
    _ = .ok "SELECT * FROM \"m\" LIMIT 2" := rfl

end Assembly

end SeriesQuery
