/-
How durations are spelled.

A draft keeps the token of a duration as its file spells it.  Building the statement reads every
token, wherever it stands: in a value of a condition, in the time windows of terms nested to any
depth, in a retention policy.  What is built holds durations and no tokens, so two spellings of
one duration build the same statement.  A text that is no token fails, and the failure names the
text; such a text has no other spelling.
-/
import SeriesQuery.Proofs.Draft.Conditions
import SeriesQuery.Proofs.Duration.Shortest

namespace SeriesQuery

/-! ### Tokens -/

namespace Duration

/-- Both texts are tokens of one duration. -/
def Agree (t t' : String) : Prop :=
  ∃ d, parse t = .ok d ∧ parse t' = .ok d

/-- The second text says what the first says: it is the same text, or both are tokens of one
    duration. -/
inductive Respelled : String → String → Prop
  | same (t : String) : Respelled t t
  | tokens {t t' : String} (h : Agree t t') : Respelled t t'

theorem Respelled.parse_eq {t t' : String} (h : Respelled t t') : parse t = parse t' := by
  cases h with
  | same => rfl
  | tokens h =>
      obtain ⟨d, h, h'⟩ := h
      rw [h, h']

theorem respelled_token {t : String} {d : Duration} (h : parse t = .ok d) :
    Respelled t d.token :=
  .tokens ⟨d, h, d.parse_token⟩

theorem parse_option_eq {o o' : Option String} (h : Option.Rel Respelled o o') :
    o.mapM parse = o'.mapM parse := by
  cases h with
  | none => rfl
  | some h => rw [Option.mapM_some, Option.mapM_some, h.parse_eq]

end Duration

/-! ### Terms -/

namespace TermDraft

/-- Terms of one shape.  Their names, numbers, aliases and directions are the same; the names of
    functions are related by `function`, and the texts for durations by `duration`. -/
inductive Alike (function duration : String → String → Prop) : TermDraft → TermDraft → Prop
  | name (s : String) : Alike function duration (name s) (name s)
  | int (n : Int) : Alike function duration (int n) (int n)
  | float (x : Floating) : Alike function duration (float x) (float x)
  | call {f f' : String} {args args' : List TermDraft} (aliasName : Option String)
      (hfunction : function f f') (hargs : List.Forall₂ (Alike function duration) args args') :
      Alike function duration (call f args aliasName) (call f' args' aliasName)
  | time {interval interval' : String} {offset offset' : Option String}
      (hinterval : duration interval interval') (hoffset : Option.Rel duration offset offset') :
      Alike function duration (time interval offset) (time interval' offset')
  | asc (field : String) : Alike function duration (asc field) (asc field)
  | desc (field : String) : Alike function duration (desc field) (desc field)

/-- The term with other spellings of its durations. -/
abbrev Respelled : TermDraft → TermDraft → Prop :=
  Alike Eq Duration.Respelled

mutual

/-- A term with other spellings means the same fragment, or fails with the same failure. -/
theorem fragment_of_respelled : ∀ {t t' : TermDraft}, t.Respelled t' → t.fragment = t'.fragment
  | name _, _, h | int _, _, h | float _, _, h | asc _, _, h | desc _, _, h => by
    cases h
    rfl
  | call _ args _, _, h => by
    cases h with
    | call aliasName hfunction hargs =>
        unfold fragment
        rw [hfunction, fragments_of_respelled hargs]
  | time _ none, _, h => by
    cases h with
    | time hinterval hoffset =>
        cases hoffset
        unfold fragment
        rw [hinterval.parse_eq]
  | time _ (some _), _, h => by
    cases h with
    | time hinterval hoffset =>
        cases hoffset with
        | some hoffset =>
            unfold fragment
            rw [hinterval.parse_eq, hoffset.parse_eq]

theorem fragments_of_respelled :
    ∀ {ts ts' : List TermDraft}, List.Forall₂ Respelled ts ts' → fragments ts = fragments ts'
  | [], _, h => by
    cases h
    rfl
  | _ :: _, _, h => by
    cases h with
    | cons h hs =>
        unfold fragments
        rw [fragment_of_respelled h, fragments_of_respelled hs]

end

end TermDraft

/-! ### Values and conditions -/

/-- The value with another spelling, if it is a duration. -/
inductive ValueDraft.Respelled : ValueDraft → ValueDraft → Prop
  | same (v : ValueDraft) : Respelled v v
  | duration {t t' : String} (h : Duration.Respelled t t') : Respelled (duration t) (duration t')

theorem ValueDraft.Respelled.value_eq {v v' : ValueDraft} (h : v.Respelled v') :
    v.value = v'.value := by
  cases h with
  | same => rfl
  | duration h => exact congrArg (Except.map Value.duration) h.parse_eq

namespace ConditionDraft

/-- The condition with other spellings of its durations. -/
structure Respelled (c c' : ConditionDraft) : Prop where
  values : List.Forall₂ ValueDraft.Respelled c.values c'.values
  rest : c' = { c with values := c'.values }

theorem Respelled.joined_eq (c c' : ConditionDraft) (h : c.Respelled c') :
    c.joined = c'.joined := by
  have hvalues : c.values.mapM ValueDraft.value = c'.values.mapM ValueDraft.value :=
    Composed.mapM_congr_of_forall₂ (fun _ _ => ValueDraft.Respelled.value_eq) h.values
  rw [h.rest]
  unfold joined condition
  rw [hvalues]

theorem clause_of_respelled {cs cs' : List ConditionDraft} (h : List.Forall₂ Respelled cs cs') :
    clause cs = clause cs' := by
  rw [clause_eq, clause_eq, Composed.mapM_congr_of_forall₂ Respelled.joined_eq h]

end ConditionDraft

/-! ### Statements -/

/-- The SELECT with other spellings of its durations. -/
structure SelectDraft.Respelled (s s' : SelectDraft) : Prop where
  fields : List.Forall₂ TermDraft.Respelled s.fields s'.fields
  conditions : List.Forall₂ ConditionDraft.Respelled s.conditions s'.conditions
  groupBy : List.Forall₂ TermDraft.Respelled s.groupBy s'.groupBy
  orderBy : List.Forall₂ TermDraft.Respelled s.orderBy s'.orderBy
  rest : s' = { s with
    fields := s'.fields, conditions := s'.conditions, groupBy := s'.groupBy, orderBy := s'.orderBy }

theorem SelectDraft.Respelled.build_eq {s s' : SelectDraft} (h : s.Respelled s')
    (settings : Settings) : s.build settings = s'.build settings := by
  rw [h.rest]
  unfold build
  rw [TermDraft.fragments_of_respelled h.fields, ConditionDraft.clause_of_respelled h.conditions,
    TermDraft.fragments_of_respelled h.groupBy, TermDraft.fragments_of_respelled h.orderBy]

/-- The DELETE with other spellings of its durations. -/
structure DeleteDraft.Respelled (s s' : DeleteDraft) : Prop where
  conditions : List.Forall₂ ConditionDraft.Respelled s.conditions s'.conditions
  rest : s' = { s with conditions := s'.conditions }

theorem DeleteDraft.Respelled.build_eq {s s' : DeleteDraft} (h : s.Respelled s') :
    s.build = s'.build := by
  rw [h.rest]
  unfold build
  rw [ConditionDraft.clause_of_respelled h.conditions]

/-- The retention policy with other spellings of its durations. -/
structure RetentionPolicyDraft.Respelled (s s' : RetentionPolicyDraft) : Prop where
  duration : Duration.Respelled s.duration s'.duration
  shardDuration : Option.Rel Duration.Respelled s.shardDuration s'.shardDuration
  rest : s' = { s with duration := s'.duration, shardDuration := s'.shardDuration }

theorem RetentionPolicyDraft.Respelled.build_eq {s s' : RetentionPolicyDraft}
    (h : s.Respelled s') (settings : Settings) (isAlter : Bool) :
    s.build settings isAlter = s'.build settings isAlter := by
  rw [h.rest]
  unfold build
  rw [h.duration.parse_eq, Duration.parse_option_eq h.shardDuration]

namespace StatementDraft

/-- The statement with other spellings of its durations, wherever they stand. -/
inductive Respelled : StatementDraft → StatementDraft → Prop
  | select {s s' : SelectDraft} (h : s.Respelled s') : Respelled (select s) (select s')
  | delete {s s' : DeleteDraft} (h : s.Respelled s') : Respelled (delete s) (delete s')
  | retentionPolicy {s s' : RetentionPolicyDraft} (h : s.Respelled s') (isAlter : Bool) :
      Respelled (retentionPolicy s isAlter) (retentionPolicy s' isAlter)
  | same (d : StatementDraft) : Respelled d d

theorem Respelled.build_eq {d d' : StatementDraft} (h : d.Respelled d') (settings : Settings) :
    d.build settings = d'.build settings := by
  cases h with
  | select h => exact congrArg (Except.map Statement.select) (h.build_eq settings)
  | delete h => exact congrArg (Except.map Statement.delete) h.build_eq
  | retentionPolicy h isAlter =>
      exact congrArg (Except.map Statement.retentionPolicy) (h.build_eq settings isAlter)
  | same => rfl

/--
**The spelling of durations never matters.**  A draft and the same draft with other spellings of
its durations, the canonical tokens among them, build the same statement and compose to the same
text, or both fail with the same error.
-/
theorem spelling_never_matters {d d' : StatementDraft} (h : d.Respelled d')
    (settings : Settings) :
    d.build settings = d'.build settings ∧ d.compile settings = d'.compile settings ∧
      ∀ t e, Duration.parse t = .ok e → Duration.Respelled t e.token := by
  have hbuild := h.build_eq settings
  refine ⟨hbuild, ?_, fun t e => Duration.respelled_token⟩
  unfold compile
  rw [hbuild]

/-- A time window inside a call and a value of a condition, each in seconds and as a token of its
    own. -/
theorem spelling_of_seconds :
    let counted (interval offset age : String) : StatementDraft := .select {
      SelectDraft.everything "cpu" [⟨"age < ?", [.duration age], .and⟩] with
      fields := [.call "count" [.time interval (some offset)] (some "n")] }
    (counted "5400s" "5400s" "5400s").Respelled (counted "90m" "5400s" "90m") ∧
      (counted "5400s" "5400s" "5400s").compile Settings.empty =
        (counted "90m" "5400s" "90m").compile Settings.empty := by
  intro counted
  have htoken : Duration.Respelled "5400s" "90m" := by
    have hparse : Duration.parse "5400s" = .ok ⟨90 * TimeUnit.minute.nanos, by decide⟩ :=
      (Duration.parse_group_eq_ok_iff (List.cons_ne_nil '5' ['4', '0', '0'])
        (List.all_eq_true.mp rfl) .second).mpr (by decide)
    exact Duration.respelled_token hparse
  have hcounted : (counted "5400s" "5400s" "5400s").Respelled (counted "90m" "5400s" "90m") :=
    .select {
      fields := .cons (.call _ rfl (.cons (.time htoken (.some (.same _))) .nil)) .nil
      conditions := .cons ⟨.cons (.duration htoken) .nil, rfl⟩ .nil
      groupBy := .nil
      orderBy := .nil
      rest := rfl }
  exact ⟨hcounted, (spelling_never_matters hcounted Settings.empty).2.1⟩

end StatementDraft

end SeriesQuery
