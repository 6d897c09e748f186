/-
The first failure of a SELECT that a file gives.

A draft becomes a statement in two phases.  Building it turns durations, values and fill options
into what they mean; composing it then looks at the measurement, at the conditions and at the
number to fill with.  Each phase goes through the parts of the draft in an order of its own and
stops at the first failure.  So all that is looked at is known beforehand from the draft alone:
the demands of the first phase, and behind them those of the second.  Terms are nested to any
depth, but only durations can fail in them, and the fragment of a term has nothing in it that
could fail when it is composed.
-/
import SeriesQuery.Proofs.Draft.ConfiguredPolicy
import SeriesQuery.Proofs.Draft.Conditions
import SeriesQuery.Proofs.Duration.Exact
import SeriesQuery.Proofs.Fill
import SeriesQuery.Proofs.Fragment.Checks

namespace SeriesQuery

open Composed

/-! ### Terms -/

namespace TermDraft

mutual

/-- The texts that the term gives for durations, from left to right, a window before its offset. -/
def durations : TermDraft → List String
  | name _ | int _ | float _ | asc _ | desc _ => []
  | call _ args _ => durationsAll args
  | time interval offset => interval :: offset.toList

/-- The texts that the terms give for durations. -/
def durationsAll : List TermDraft → List String
  | [] => []
  | t :: ts => t.durations ++ durationsAll ts

end

/-- Why a text is no duration, if it is none. -/
def durationFailure (token : String) : Option ComposeError :=
  failure? (Duration.parse token)

mutual

/-- A term fails at its first text that is no duration, and nowhere else. -/
theorem failsAtFirst : ∀ t : TermDraft, FailsAtFirst durationFailure t.fragment t.durations
  | name _ | int _ | float _ | asc _ | desc _ => by
    unfold fragment durations
    exact FailsAtFirst.ok _
  | call function args aliasName => by
    unfold fragment durations
    exact (failsAtFirst_all args).map _
  | time interval none => by
    unfold fragment durations
    exact (FailsAtFirst.single rfl).map _
  | time interval (some offset) => by
    unfold fragment durations
    have hinterval : FailsAtFirst durationFailure (Duration.parse interval) [interval] :=
      FailsAtFirst.single rfl
    exact hinterval.bind fun _ _ => (FailsAtFirst.single rfl).map _

theorem failsAtFirst_all :
    ∀ ts : List TermDraft, FailsAtFirst durationFailure (fragments ts) (durationsAll ts)
  | [] => by
    unfold fragments durationsAll
    exact FailsAtFirst.ok _
  | t :: ts => by
    unfold fragments durationsAll
    exact t.failsAtFirst.bind fun _ _ => (failsAtFirst_all ts).map _

end

mutual

/-- Composing the fragment of a term checks nothing. -/
theorem checks_of_fragment : ∀ {t : TermDraft} {f : Fragment}, t.fragment = .ok f → f.checks = []
  | name _, f, h | int _, f, h | float _, f, h => by
    unfold fragment at h
    cases h
    unfold Fragment.checks
    rfl
  | asc _, f, h | desc _, f, h => by
    unfold fragment at h
    cases h
    unfold Fragment.checks Fragment.checks
    rfl
  | call function args aliasName, f, h => by
    unfold fragment at h
    obtain ⟨fs, hfs, h⟩ := bind_eq_ok_iff.mp h
    cases h
    unfold Fragment.checks
    rw [checks_of_fragments hfs]
    cases aliasName <;> rfl
  | time interval none, f, h => by
    unfold fragment at h
    obtain ⟨d, -, h⟩ := bind_eq_ok_iff.mp h
    cases h
    rfl
  | time interval (some offset), f, h => by
    unfold fragment at h
    obtain ⟨d, -, h⟩ := bind_eq_ok_iff.mp h
    obtain ⟨d', -, h⟩ := bind_eq_ok_iff.mp h
    cases h
    rfl

theorem checks_of_fragments :
    ∀ {ts : List TermDraft} {fs : List Fragment}, fragments ts = .ok fs →
      Fragment.checksAll fs = []
  | [], fs, h => by
    unfold fragments at h
    cases h
    rfl
  | t :: ts, fs, h => by
    unfold fragments at h
    obtain ⟨f, hf, h⟩ := bind_eq_ok_iff.mp h
    obtain ⟨fs', hfs, h⟩ := bind_eq_ok_iff.mp h
    cases h
    unfold Fragment.checksAll
    rw [checks_of_fragment hf, checks_of_fragments hfs]
    rfl

end

/-- **A term is a fragment that composes, or it gives a text that is no duration.** -/
theorem composes_or_fails (t : TermDraft) :
    (∃ token ∈ t.durations, t.fragment = .error (.invalidDuration token)) ∨
      ∃ f text, t.fragment = .ok f ∧ f.compile = .ok text := by
  cases hfragment : t.fragment with
  | error e =>
      obtain ⟨before, token, after, hdurations, hfailure, -⟩ :=
        (t.failsAtFirst.error_iff e).mp hfragment
      obtain ⟨rfl, -⟩ := Duration.parse_eq_error_iff.mp (failure?_eq_some_iff.mp hfailure)
      refine Or.inl ⟨token, ?_, rfl⟩
      rw [hdurations]
      simp
  | ok f =>
      have hperforms := f.performs
      rw [checks_of_fragment hfragment] at hperforms
      obtain ⟨text, htext⟩ := hperforms.exists_ok_iff.mpr (by simp)
      exact Or.inr ⟨f, text, rfl, htext⟩

end TermDraft

/-! ### Conditions -/

namespace ConditionDraft

/-- Why a value means nothing, if it does not. -/
def valueFailure (v : ValueDraft) : Option ComposeError :=
  failure? v.value

theorem failsAtFirst_condition (c : ConditionDraft) :
    FailsAtFirst valueFailure c.condition c.values := by
  have hvalue (v : ValueDraft) : FailsAtFirst valueFailure v.value [v] :=
    FailsAtFirst.single rfl
  have hvalues := FailsAtFirst.mapM hvalue c.values
  rw [List.flatMap_singleton'] at hvalues
  exact hvalues.map _

/-- Building the clause fails at the first value that means nothing. -/
theorem failsAtFirst_clause (drafts : List ConditionDraft) :
    FailsAtFirst valueFailure (clause drafts) (drafts.flatMap values) := by
  rw [clause_eq]
  refine FailsAtFirst.functor_map ?_ _
  exact FailsAtFirst.mapM (fun c => c.failsAtFirst_condition.functor_map _) drafts

theorem checks_ofJoined (js : List (Conjunction × Condition)) :
    (WhereClause.ofJoined js).checks = js.map fun j => .condition j.2 := by
  cases js with
  | nil => rfl
  | cons j rest =>
      unfold WhereClause.checks
      show Check.condition j.2 :: (rest.flatMap fun j => [.conjunction j.1, .condition j.2]).flatMap
        WhereClause.Term.checks = _
      rw [List.flatMap_assoc, List.map_cons, List.map_eq_flatMap]
      rfl

/-- Why the expression of a condition does not take its values, if it does not. -/
def textFailure (c : ConditionDraft) : Option ComposeError :=
  failure? c.text

/-- The checks of the clause are those of the conditions, in order. -/
theorem findSome?_checks_of_clause {drafts : List ConditionDraft} {cs : WhereClause}
    (h : clause drafts = .ok cs) :
    cs.checks.findSome? Check.failure = drafts.findSome? textFailure := by
  rw [clause_eq] at h
  obtain ⟨js, hjs, rfl⟩ := map_eq_ok_iff.mp h
  rw [checks_ofJoined]
  have hbuilt := mapM_eq_ok_iff.mp hjs
  clear h hjs
  induction hbuilt with
  | nil => rfl
  | @cons c j _ _ hj _ ih =>
      obtain ⟨condition, hcondition, rfl⟩ := map_eq_ok_iff.mp hj
      have hsame : (Check.condition condition).failure = c.textFailure := by
        have hperforms : failure? condition.compile = [Check.condition condition].findSome? _ :=
          condition.performs
        unfold textFailure text
        rw [hcondition, ok_bind, hperforms, List.findSome?_singleton]
      rw [List.map_cons, List.findSome?_cons, List.findSome?_cons, hsame, ih]

end ConditionDraft

/-! ### Fill options -/

namespace FillDraft

/-- The text of an option that is given as text. -/
def texts : FillDraft → List String
  | text s => [s]
  | int _ | float _ => []

/-- The text of an option that is given as a number. -/
def numbers : FillDraft → List String
  | int n => [toString n]
  | float x => [x.text .binary64]
  | text _ => []

/-- Why a text is no fill option, if it is none. -/
def textFailure (s : String) : Option ComposeError :=
  failure? (Fill.ofText? s)

/-- Why a number cannot be filled with, if it cannot. -/
def numberFailure (text : String) : Option ComposeError :=
  (Fill.number text).failure

theorem failsAtFirst (f : FillDraft) : FailsAtFirst textFailure f.fill f.texts := by
  cases f with
  | int n => exact FailsAtFirst.ok _
  | float x => exact FailsAtFirst.ok _
  | text s => exact FailsAtFirst.single rfl

/-- An option that was read from text is checked again without failing. -/
theorem failure_of_fill {f : FillDraft} {option : Fill} (h : f.fill = .ok option) :
    option.failure = f.numbers.findSome? numberFailure := by
  cases f with
  | int n =>
      cases h
      exact (List.findSome?_singleton ..).symm
  | float x =>
      cases h
      exact (List.findSome?_singleton ..).symm
  | text s =>
      have haccepted := (Fill.ofText?_eq_ok_iff.mp h).1
      cases option with
      | number text => exact if_pos (Numeral.isFiniteText_iff.mpr haccepted)
      | _ => rfl

end FillDraft

/-! ### The whole draft -/

namespace SelectDraft

/-- What a part of a draft has to be. -/
inductive Demand where
  /-- The text is a duration token. -/
  | duration (token : String)
  /-- The value means something. -/
  | value (v : ValueDraft)
  /-- The text is a fill option. -/
  | fillText (s : String)
  /-- A measurement is named. -/
  | measurement (name : Option String)
  /-- The expression of the condition takes its values. -/
  | condition (c : ConditionDraft)
  /-- The text of the number to fill with is a finite numeral. -/
  | fillNumber (text : String)

/-- Why the part is not what it has to be, if it is not. -/
def Demand.failure : Demand → Option ComposeError
  | duration token => TermDraft.durationFailure token
  | value v => ConditionDraft.valueFailure v
  | fillText s => FillDraft.textFailure s
  | measurement name => if name.isSome then none else some (.missingMeasurement .select)
  | condition c => c.textFailure
  | fillNumber text => FillDraft.numberFailure text

/-- What is looked at while the statement is built: the durations of the fields, the values of
    the conditions, the durations of the terms to group by and to sort by, and a fill option
    that is given as text. -/
def buildDemands (s : SelectDraft) : List Demand :=
  (TermDraft.durationsAll s.fields).map .duration ++
    ((s.conditions.flatMap ConditionDraft.values).map .value ++
      ((TermDraft.durationsAll s.groupBy).map .duration ++
        ((TermDraft.durationsAll s.orderBy).map .duration ++
          (s.fill.toList.flatMap FillDraft.texts).map .fillText)))

/-- What is looked at while the statement that was built is composed: the measurement, the
    conditions, and a fill option that is given as a number. -/
def composeDemands (s : SelectDraft) : List Demand :=
  .measurement s.measurement ::
    (s.conditions.map .condition ++ (s.fill.toList.flatMap FillDraft.numbers).map .fillNumber)

/-- All that is looked at, in order. -/
def demands (s : SelectDraft) : List Demand :=
  s.buildDemands ++ s.composeDemands

theorem failsAtFirst_terms (ts : List TermDraft) :
    FailsAtFirst Demand.failure (TermDraft.fragments ts)
      ((TermDraft.durationsAll ts).map .duration) :=
  (TermDraft.failsAtFirst_all ts).of_map fun _ => rfl

theorem failsAtFirst_conditions (drafts : List ConditionDraft) :
    FailsAtFirst Demand.failure (ConditionDraft.clause drafts)
      ((drafts.flatMap ConditionDraft.values).map .value) :=
  (ConditionDraft.failsAtFirst_clause drafts).of_map fun _ => rfl

theorem failsAtFirst_fill (f : Option FillDraft) :
    FailsAtFirst Demand.failure (f.mapM FillDraft.fill)
      ((f.toList.flatMap FillDraft.texts).map .fillText) := by
  cases f with
  | none => exact FailsAtFirst.ok _
  | some f =>
      have htext : FailsAtFirst Demand.failure f.fill (f.texts.map .fillText) :=
        f.failsAtFirst.of_map fun _ => rfl
      rw [Option.toList_some, List.flatMap_singleton, Option.mapM_some]
      exact htext.functor_map _

theorem failsAtFirst_build (s : SelectDraft) (settings : Settings) :
    FailsAtFirst Demand.failure (s.build settings) s.buildDemands := by
  unfold build buildDemands
  refine (failsAtFirst_terms s.fields).bind fun _ _ => ?_
  refine (failsAtFirst_conditions s.conditions).bind fun _ _ => ?_
  refine (failsAtFirst_terms s.groupBy).bind fun _ _ => ?_
  refine (failsAtFirst_terms s.orderBy).bind fun _ _ => ?_
  exact (failsAtFirst_fill s.fill).map _

theorem findSome?_checks_of_fill {f : Option FillDraft} {option : Option Fill}
    (h : f.mapM FillDraft.fill = .ok option) :
    (option.toList.map Check.fill).findSome? Check.failure =
      ((f.toList.flatMap FillDraft.numbers).map Demand.fillNumber).findSome? Demand.failure := by
  cases f with
  | none =>
      cases h
      rfl
  | some f =>
      rw [Option.mapM_some] at h
      obtain ⟨option, hoption, rfl⟩ := map_eq_ok_iff.mp h
      have hfailure := FillDraft.failure_of_fill hoption
      rw [Option.toList_some, Option.toList_some, List.map_singleton, List.findSome?_singleton,
        List.flatMap_singleton, List.findSome?_map]
      exact hfailure

/-- What a statement checks that was built from a draft. -/
theorem findSome?_checks_of_build {s : SelectDraft} {settings : Settings} {q : Select Fragment}
    (h : s.build settings = .ok q) :
    (Fragment.checksSelect q).findSome? Check.failure =
      s.composeDemands.findSome? Demand.failure := by
  unfold build at h
  obtain ⟨fields, hfields, h⟩ := bind_eq_ok_iff.mp h
  obtain ⟨conditions, hconditions, h⟩ := bind_eq_ok_iff.mp h
  obtain ⟨groupBy, hgroupBy, h⟩ := bind_eq_ok_iff.mp h
  obtain ⟨orderBy, horderBy, h⟩ := bind_eq_ok_iff.mp h
  obtain ⟨fill, hfill, h⟩ := bind_eq_ok_iff.mp h
  cases h
  have hnames (name : Option String) : Fragment.checksOption (name.map Fragment.name) = [] := by
    cases name <;> rfl
  have hconditionChecks : conditions.checks.findSome? Check.failure =
      (s.conditions.map Demand.condition).findSome? Demand.failure := by
    rw [ConditionDraft.findSome?_checks_of_clause hconditions, List.findSome?_map]
    rfl
  have hmeasurement : (Check.measurement .select (s.measurement.map Fragment.name).isSome).failure =
      (Demand.measurement s.measurement).failure := by
    rw [Option.isSome_map]
    rfl
  unfold Fragment.checksSelect composeDemands
  simp only [hnames, TermDraft.checks_of_fragments hfields, TermDraft.checks_of_fragments hgroupBy,
    TermDraft.checks_of_fragments horderBy, List.nil_append, List.findSome?_cons,
    List.findSome?_append, hmeasurement, hconditionChecks, findSome?_checks_of_fill hfill]

theorem failsAtFirst_compile (s : SelectDraft) (settings : Settings) :
    FailsAtFirst Demand.failure ((StatementDraft.select s).compile settings) s.demands := by
  rw [StatementDraft.compile_select]
  refine (s.failsAtFirst_build settings).bind fun q hq => ?_
  exact (Fragment.performsSelect q).trans (findSome?_checks_of_build hq)

/-! ### What the demands report -/

/-- The failure of a demand tells which demand it is. -/
inductive Demand.Reports : Demand → ComposeError → Prop
  | duration (token : String) : Reports (.duration token) (.invalidDuration token)
  | durationValue (token : String) : Reports (.value (.duration token)) (.invalidDuration token)
  | moment {m : Moment} {reason : MomentError} (h : m.timestamp = .error reason) :
      Reports (.value (.moment m)) (.invalidMoment m.text reason)
  | fillText (s : String) : Reports (.fillText s) (.invalidFill s)
  | measurement : Reports (.measurement none) (.missingMeasurement .select)
  | condition {c : ConditionDraft} {e : ComposeError} (h : c.text = .error e) :
      Reports (.condition c) e
  | fillNumber {text : String} (h : ¬ Numeral.IsFiniteNumeral text.toList) :
      Reports (.fillNumber text) (.invalidFill text)

theorem Demand.reports_of_failure {d : Demand} {e : ComposeError} (h : d.failure = some e) :
    d.Reports e := by
  cases d with
  | duration token =>
      obtain ⟨rfl, -⟩ := Duration.parse_eq_error_iff.mp (failure?_eq_some_iff.mp h)
      exact .duration token
  | value v =>
      have hvalue : v.value = .error e := failure?_eq_some_iff.mp h
      cases v with
      | duration token =>
          have hparse : Duration.parse token = .error e := by
            cases hparse : Duration.parse token with
            | ok d =>
                rw [ValueDraft.value, hparse] at hvalue
                cases hvalue
            | error e' =>
                rw [ValueDraft.value, hparse] at hvalue
                cases hvalue
                rfl
          obtain ⟨rfl, -⟩ := Duration.parse_eq_error_iff.mp hparse
          exact .durationValue token
      | moment m =>
          rw [ValueDraft.value, Moment.value] at hvalue
          split at hvalue
          · cases hvalue
          · rename_i reason hreason
            cases hvalue
            exact .moment hreason
      | int | uint | float | bool | text | time => cases hvalue
  | fillText s =>
      obtain rfl := Fill.ofText?_eq_error (failure?_eq_some_iff.mp h)
      exact .fillText s
  | measurement name =>
      cases name with
      | none =>
          cases h
          exact .measurement
      | some name => cases h
  | condition c => exact .condition (failure?_eq_some_iff.mp h)
  | fillNumber text =>
      have hrefused : ¬ Numeral.isFiniteText text.toList = true := by
        intro hfinite
        cases (if_pos hfinite).symm.trans h
      cases (if_neg hrefused).symm.trans h
      exact .fillNumber (mt Numeral.isFiniteText_iff.mpr hrefused)

/--
**The first failure of a SELECT that a file gives.**  Whatever the draft and the settings are, the
SELECT composes exactly when all demands on the draft hold, and its error is that of the first
demand that does not, and tells it: durations in the fields, from left to right and at any depth,
a window before its offset; then values, condition by condition; durations in the terms to group
by, and in those to sort by; the text of a fill option; then the measurement; the conditions; and
the number to fill with.  A term is a fragment that composes, or it fails with a text that is no
duration.  Whole numbers of 64 bits may always be filled with, and floating-point data exactly
when they are numbers.
-/
theorem first_failure_of_select (s : SelectDraft) (settings : Settings) :
    ((∃ text, (StatementDraft.select s).compile settings = .ok text) ↔
      ∀ d ∈ s.demands, d.failure = none) ∧
    (∀ e, (StatementDraft.select s).compile settings = .error e ↔
      ∃ before d after, s.demands = before ++ d :: after ∧ d.failure = some e ∧
        ∀ b ∈ before, b.failure = none) ∧
    (∀ (d : Demand) (e : ComposeError), d.failure = some e → d.Reports e) ∧
    (∀ t : TermDraft,
      (∃ token ∈ t.durations, t.fragment = .error (.invalidDuration token)) ∨
        ∃ f text, t.fragment = .ok f ∧ f.compile = .ok text) ∧
    (∀ n : Int, n.natAbs < UInt64.size → (Demand.fillNumber (toString n)).failure = none) ∧
    ∀ x : Floating, x.Fits .binary64 → (Demand.fillNumber (x.text .binary64)).failure =
      if x.isFinite then none else some (.invalidFill (x.text .binary64)) := by
  refine ⟨(s.failsAtFirst_compile settings).exists_ok_iff,
    (s.failsAtFirst_compile settings).error_iff, fun _ _ => Demand.reports_of_failure,
    TermDraft.composes_or_fails, ?_, ?_⟩
  · intro n hn
    exact if_pos (Numeral.isFiniteText_int hn)
  · intro x hx
    show (if Numeral.isFiniteText (x.text .binary64).toList then none else _) = _
    simp only [Numeral.isFiniteText_floating hx]

/-- An interval, an offset and a value that are no durations, no measurement, and a number to fill
    with that is none: each is the error once what comes before it is right. -/
theorem first_failure_of_faulty_window :
    let faulty (fields : List TermDraft) (conditions : List ConditionDraft) : SelectDraft :=
      ⟨fields, none, none, conditions, [], [], none, none, none, none, some (.float .nan)⟩
    let window (interval offset : String) : TermDraft :=
      .call "mean" [.name "v", .time interval (some offset)] none
    let condition (token : String) : ConditionDraft := ⟨"x > ? AND y", [.duration token], .and⟩
    (StatementDraft.select (faulty [window "5x" "6y"] [condition ""])).compile .empty =
        .error (.invalidDuration "5x") ∧
      (StatementDraft.select (faulty [window "5m" "6y"] [condition ""])).compile .empty =
        .error (.invalidDuration "6y") ∧
      (StatementDraft.select (faulty [window "5m" "6m"] [condition ""])).compile .empty =
        .error (.invalidDuration "") ∧
      (StatementDraft.select (faulty [window "5m" "6m"] [condition "1s"])).compile .empty =
        .error (.missingMeasurement .select) ∧
      (Demand.fillNumber (Floating.nan.text .binary64)).failure = some (.invalidFill "NaN") := by
  intro faulty window condition
  have hfive : (Demand.duration "5m").failure = none := by decide +kernel
  have hsix : (Demand.duration "6m").failure = none := by decide +kernel
  have hvalue : (Demand.value (.duration "1s")).failure = none := by decide +kernel
  refine ⟨?_, ?_, ?_, ?_, ?_⟩
  · refine ((first_failure_of_select _ _).2.1 _).mpr
      ⟨[], .duration "5x", _, rfl, by decide +kernel, ?_⟩
    simp
  · refine ((first_failure_of_select _ _).2.1 _).mpr
      ⟨[.duration "5m"], .duration "6y", _, rfl, by decide +kernel, ?_⟩
    simpa using hfive
  · refine ((first_failure_of_select _ _).2.1 _).mpr
      ⟨[.duration "5m", .duration "6m"], .value (.duration ""), _, rfl, by decide +kernel, ?_⟩
    simpa using ⟨hfive, hsix⟩
  · refine ((first_failure_of_select _ _).2.1 _).mpr
      ⟨[.duration "5m", .duration "6m", .value (.duration "1s")], .measurement none, _, rfl,
        by decide +kernel, ?_⟩
    simpa using ⟨hfive, hsix, hvalue⟩
  · exact (first_failure_of_select (faulty [] []) .empty).2.2.2.2.2 .nan trivial

end SelectDraft

end SeriesQuery
