/-
Fragments and the checks in them.

Composing a fragment does nothing but look at what its parts need, one after the other, and
write text around what they compile to.  What can fail is therefore listed before anything is
compiled: the checks of a fragment are those of its parts, in the order in which the parts
compile, and the few that a statement makes itself.  A check knows its failure from what was
given alone, so the first check of the list that fails tells the outcome of the whole.
-/
import SeriesQuery.Fragment
import SeriesQuery.Proofs.Composed

namespace SeriesQuery

/-! ### What is checked -/

/-- Why shorthand of so many words cannot take the values: it compares one name with one value. -/
def Condition.shorthandFailure (c : Condition) : Option ComposeError :=
  match c.words.length with
  | 0 => some .emptyCondition
  | 1 | 2 => if c.values.length = 1 then none else some .expectedSingleValue
  | _ => some (.unsupportedExpression c.text)

/-- Why the values do not go with the text of the condition, if they do not. -/
def Condition.failure (c : Condition) : Option ComposeError :=
  if c.places ≠ 0 then
    if c.places = c.values.length then none
    else some (.placeholderMismatch c.places c.values.length)
  else if c.values = [] then none
  else c.shorthandFailure

/-- Why a fill option cannot stand in a statement, if it cannot. -/
def Fill.failure : Fill → Option ComposeError
  | number text => if Numeral.isFiniteText text.toList then .none else some (.invalidFill text)
  | null | none | previous | linear => .none

/-- What has to hold of one part of a fragment. -/
inductive Check where
  /-- The values of a condition go with its text. -/
  | condition (c : Condition)
  /-- The statement has a measurement. -/
  | measurement (statement : MeasurementStatement) (isGiven : Bool)
  /-- A retention policy stands beside a measurement. -/
  | policyWithMeasurement (hasPolicy hasMeasurement : Bool)
  /-- A number to fill with is finite. -/
  | fill (f : Fill)

/-- Why the check fails, if it does. -/
def Check.failure : Check → Option ComposeError
  | condition c => c.failure
  | measurement statement isGiven =>
    if isGiven then none else some (.missingMeasurement statement)
  | policyWithMeasurement hasPolicy hasMeasurement =>
    if hasPolicy && !hasMeasurement then some .retentionPolicyWithoutMeasurement else none
  | fill f => f.failure

/-! ### The checks of a fragment -/

/-- The checks of a term of a WHERE clause. -/
def WhereClause.Term.checks : Term → List Check
  | condition c => [.condition c]
  | conjunction _ => []

/-- The checks of a WHERE clause: those of its conditions, in order. -/
def WhereClause.checks (cs : WhereClause) : List Check :=
  cs.terms.flatMap Term.checks

namespace Fragment

mutual

/-- The checks of the fragment, in the order in which they are made. -/
def checks : Fragment → List Check
  | condition c => [.condition c]
  | call _ args aliasName => checksAll args ++ checksOption aliasName
  | ordered term _ => term.checks
  | statement s => checksStatement s
  | name _ | window _ | raw _ | quoted _ | conjunction _ | value _ => []

/-- The checks of the fragments, from the first to the last. -/
def checksAll : List Fragment → List Check
  | [] => []
  | f :: fs => f.checks ++ checksAll fs

/-- The checks of a fragment that may be absent. -/
def checksOption : Option Fragment → List Check
  | none => []
  | some f => f.checks

/-- The checks of the statement. -/
def checksStatement : Statement Fragment → List Check
  | .select s => checksSelect s
  | .delete s => checksDelete s
  | .object _ object => object.checks
  | .retentionPolicy p => checksRetentionPolicy p
  | .dropRetentionPolicy policy database => policy.checks ++ database.checks
  | .list _ database => checksOption database
  | .showDatabases => []
  | .showKeys _ source => checksKeys source

/-- The checks of the SELECT.  That it has a measurement is checked before any part is. -/
def checksSelect : Select Fragment → List Check
  | ⟨fields, measurement, retentionPolicy, conditions, groupBy, orderBy, _, _, _, _, fill⟩ =>
    .measurement .select measurement.isSome ::
      (checksOption measurement ++ (checksOption retentionPolicy ++ (checksAll fields ++
        (conditions.checks ++ (checksAll groupBy ++ (checksAll orderBy ++
          fill.toList.map .fill))))))

/-- The checks of the DELETE.  That it has a measurement is checked before any part is. -/
def checksDelete : Delete Fragment → List Check
  | ⟨measurement, conditions⟩ =>
    .measurement .delete measurement.isSome :: (checksOption measurement ++ conditions.checks)

/-- The checks of the CREATE or ALTER RETENTION POLICY. -/
def checksRetentionPolicy : RetentionPolicy Fragment → List Check
  | ⟨policy, database, _, _, _, _, _⟩ => policy.checks ++ database.checks

/-- The checks of the SHOW TAG KEYS or SHOW FIELD KEYS.  That the retention policy stands beside
    a measurement is checked last. -/
def checksKeys : KeysScope Fragment → List Check
  | ⟨database, measurement, retentionPolicy⟩ =>
    checksOption database ++ (checksOption measurement ++ (checksOption retentionPolicy ++
      [.policyWithMeasurement retentionPolicy.isSome measurement.isSome]))

end

end Fragment

/-! ### Performing checks -/

namespace Composed

variable {α β : Type}

/-- The outcome is that of the checks: the first that fails is the failure. -/
def Performs (x : Composed α) (checks : List Check) : Prop :=
  failure? x = checks.findSome? Check.failure

namespace Performs

variable {x : Composed α} {xs ys : List Check}

theorem ok (a : α) : Performs (.ok a) [] :=
  FailsAtFirst.ok a

theorem single {c : Check} (h : failure? x = c.failure) : Performs x [c] :=
  FailsAtFirst.single h

theorem passing {c : Check} (hpass : c.failure = none) (h : Performs x xs) :
    Performs x (c :: xs) :=
  FailsAtFirst.passing hpass h

/-- What comes behind is checked only once the first part has compiled. -/
theorem bind {k : α → Composed β} (hx : Performs x xs)
    (hk : ∀ a, x = .ok a → Performs (k a) ys) : Performs (x >>= k) (xs ++ ys) :=
  FailsAtFirst.bind hx hk

/-- Writing text around what compiled checks nothing. -/
theorem map (hx : Performs x xs) (f : α → β) : Performs (x >>= fun a => pure (f a)) xs :=
  FailsAtFirst.map hx f

theorem mapM {f : α → Composed β} {checks : α → List Check}
    (h : ∀ a, Performs (f a) (checks a)) (l : List α) :
    Performs (l.mapM f) (l.flatMap checks) :=
  FailsAtFirst.mapM h l

/-- All is well exactly when every check passes. -/
theorem exists_ok_iff (h : Performs x xs) : (∃ a, x = .ok a) ↔ ∀ c ∈ xs, c.failure = none :=
  FailsAtFirst.exists_ok_iff h

/-- The failure is that of a check behind checks that pass. -/
theorem error_iff (h : Performs x xs) (e : ComposeError) :
    x = .error e ↔ ∃ before c after, xs = before ++ c :: after ∧
      c.failure = some e ∧ ∀ b ∈ before, b.failure = none :=
  FailsAtFirst.error_iff h e

end Performs
end Composed

open Composed

theorem Condition.failure?_explicitText (c : Condition) :
    failure? c.explicitText = c.failure := by
  unfold explicitText failure shorthandFailure
  by_cases hplaces : c.places = 0
  · rw [if_neg (by omega), if_neg (not_not_intro hplaces)]
    by_cases hvalues : c.values = []
    · rw [if_pos (List.isEmpty_iff.mpr hvalues), if_pos hvalues]
      rfl
    · rw [if_neg (mt List.isEmpty_iff.mp hvalues), if_neg hvalues]
      match c.words with
      | [] => rfl
      | [name] =>
          show failure? (if c.values.length = 1 then _ else _) =
            if c.values.length = 1 then _ else _
          split <;> rfl
      | [name, operator] =>
          show failure? (if c.values.length = 1 then _ else _) =
            if c.values.length = 1 then _ else _
          split <;> rfl
      | _ :: _ :: _ :: _ => rfl
  · rw [if_pos (by omega), if_pos hplaces]
    split <;> rfl

theorem Condition.performs (c : Condition) : Performs c.compile [.condition c] := by
  refine Performs.single ?_
  show failure? c.compile = c.failure
  rw [← c.failure?_explicitText]
  unfold Condition.compile
  cases c.explicitText <;> rfl

theorem Fill.performs (f : Fill) : Performs f.compile [.fill f] := by
  refine Performs.single ?_
  cases f with
  | number text =>
      show failure? (if Numeral.isFiniteText text.toList then _ else _) =
        if Numeral.isFiniteText text.toList then _ else _
      split <;> rfl
  | _ => rfl

theorem Fill.performs_option (f : Option Fill) :
    Performs (f.mapM Fill.compile) (f.toList.map .fill) := by
  cases f with
  | none => exact Performs.ok _
  | some f =>
      show Performs _ [.fill f]
      exact f.performs.map some

theorem WhereClause.Term.performs (t : Term) : Performs t.compile t.checks := by
  cases t with
  | condition c => exact c.performs
  | conjunction k => exact Performs.ok _

theorem WhereClause.performs (cs : WhereClause) : Performs cs.compile cs.checks :=
  Performs.mapM Term.performs cs.terms

namespace Fragment

theorem isSome_of_compileOption {f : Option Fragment} {text : Option String}
    (h : compileOption f = .ok text) : text.isSome = f.isSome := by
  cases f with
  | none =>
      cases h
      rfl
  | some f =>
      unfold compileOption at h
      obtain ⟨t, _, ht⟩ := bind_eq_ok_iff.mp h
      cases ht
      rfl

mutual

theorem performs : ∀ f : Fragment, Performs f.compile f.checks
  | condition c => by
    unfold compile checks
    exact c.performs
  | call function args aliasName => by
    unfold compile checks
    exact (performsAll args).bind fun _ _ => (performsOption aliasName).map _
  | ordered term _ => by
    unfold compile checks
    exact term.performs.map _
  | statement s => by
    unfold compile checks
    exact performsStatement s
  | name _ | window _ | raw _ | quoted _ | conjunction _ | value _ => by
    unfold compile checks
    exact Performs.ok _

theorem performsAll : ∀ fs : List Fragment, Performs (compileAll fs) (checksAll fs)
  | [] => by
    unfold compileAll checksAll
    exact Performs.ok _
  | f :: fs => by
    unfold compileAll checksAll
    exact f.performs.bind fun _ _ => (performsAll fs).map _

theorem performsOption : ∀ f : Option Fragment, Performs (compileOption f) (checksOption f)
  | none => by
    unfold compileOption checksOption
    exact Performs.ok _
  | some f => by
    unfold compileOption checksOption
    exact f.performs.map _

theorem performsStatement :
    ∀ s : Statement Fragment, Performs (compileStatement s) (checksStatement s)
  | .select s => by
    unfold compileStatement checksStatement
    exact performsSelect s
  | .delete s => by
    unfold compileStatement checksStatement
    exact performsDelete s
  | .object _ object => by
    unfold compileStatement checksStatement
    exact object.performs.map _
  | .retentionPolicy p => by
    unfold compileStatement checksStatement
    exact performsRetentionPolicy p
  | .dropRetentionPolicy policy database => by
    unfold compileStatement checksStatement
    exact policy.performs.bind fun _ _ => database.performs.map _
  | .list _ database => by
    unfold compileStatement checksStatement
    exact (performsOption database).map _
  | .showDatabases => by
    unfold compileStatement checksStatement
    exact Performs.ok _
  | .showKeys kind source => by
    unfold compileStatement checksStatement
    exact performsKeys kind source

theorem performsSelect : ∀ s : Select Fragment, Performs (compileSelect s) (checksSelect s)
  | ⟨_, none, _, _, _, _, _, _, _, _, _⟩ => by
    unfold compileSelect checksSelect
    rfl
  | ⟨fields, some measurement, retentionPolicy, conditions, groupBy, orderBy, _, _, _, _,
      fill⟩ => by
    unfold compileSelect checksSelect
    refine Performs.passing rfl ?_
    refine measurement.performs.bind fun _ _ => ?_
    refine (performsOption retentionPolicy).bind fun _ _ => ?_
    refine (performsAll fields).bind fun _ _ => ?_
    refine conditions.performs.bind fun _ _ => ?_
    refine (performsAll groupBy).bind fun _ _ => ?_
    refine (performsAll orderBy).bind fun _ _ => ?_
    exact (Fill.performs_option fill).map _

theorem performsDelete : ∀ s : Delete Fragment, Performs (compileDelete s) (checksDelete s)
  | ⟨none, _⟩ => by
    unfold compileDelete checksDelete
    rfl
  | ⟨some measurement, conditions⟩ => by
    unfold compileDelete checksDelete
    refine Performs.passing rfl ?_
    exact measurement.performs.bind fun _ _ => conditions.performs.map _

theorem performsRetentionPolicy :
    ∀ p : RetentionPolicy Fragment, Performs (compileRetentionPolicy p) (checksRetentionPolicy p)
  | ⟨policy, database, _, _, _, _, _⟩ => by
    unfold compileRetentionPolicy checksRetentionPolicy
    exact policy.performs.bind fun _ _ => database.performs.map _

theorem performsKeys (kind : KeyKind) :
    ∀ s : KeysScope Fragment, Performs (compileKeys kind s) (checksKeys s)
  | ⟨database, measurement, retentionPolicy⟩ => by
    unfold compileKeys checksKeys
    refine (performsOption database).bind fun _ _ => ?_
    refine (performsOption measurement).bind fun m hm => ?_
    refine (performsOption retentionPolicy).bind fun p hp => Performs.single ?_
    -- the last check looks at what compiled, the list at what was given
    rw [← isSome_of_compileOption hm, ← isSome_of_compileOption hp]
    cases m <;> cases p <;> rfl

end

end Fragment
end SeriesQuery
