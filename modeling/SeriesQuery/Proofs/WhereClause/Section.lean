/-
The WHERE section of SELECT and DELETE.

The steps that put a SELECT or a DELETE together fall into two kinds, and they do not touch each
other's parts: the steps that call the WHERE clause, and all others.  So the conditions are what
the calls leave, the other parts are what the other steps leave, and the statement is that of
the other steps with the WHERE section put in.
-/
import SeriesQuery.Proofs.Statement.Parts
import SeriesQuery.Proofs.WhereClause.Calls

namespace SeriesQuery

namespace WhereClause

/-! ### Calls among other steps -/

section Steps

variable {S T : Type} (apply : S → T → S) (set : S → WhereClause → S) (call? : T → Option Call)

/-- Steps that call the WHERE clause `set` sets, and steps that leave it alone. -/
structure Separated : Prop where
  /-- A call changes nothing but the conditions. -/
  apply_call : ∀ {step call}, call? step = some call → ∀ s cs,
    apply (set s cs) step = set s (cs.apply call)
  /-- Any other step neither reads nor changes the conditions. -/
  apply_other : ∀ {step}, call? step = .none → ∀ s cs,
    apply (set s cs) step = set (apply s step) cs

variable {apply set call?}

/-- The calls change the conditions, and the other steps everything else. -/
theorem Separated.foldl_apply (h : Separated apply set call?) (steps : List T) :
    ∀ s cs, steps.foldl apply (set s cs) =
      set ((steps.filter fun step => (call? step).isNone).foldl apply s)
        (cs.applyAll (steps.filterMap call?)) := by
  induction steps with
  | nil =>
      intro s cs
      rfl
  | cons step steps ih =>
      intro s cs
      rw [List.foldl_cons]
      cases hcall : call? step with
      | some call =>
          rw [h.apply_call hcall, ih, List.filterMap_cons_some hcall,
            List.filter_cons_of_neg (by simp [hcall]), applyAll_cons]
      | none =>
          rw [h.apply_other hcall, ih, List.filterMap_cons_none hcall,
            List.filter_cons_of_pos (by simp [hcall]), List.foldl_cons]

/-- No other step is a call. -/
theorem filterMap_others (call? : T → Option Call) (steps : List T) :
    (steps.filter fun step => (call? step).isNone).filterMap call? = [] := by
  refine List.filterMap_eq_nil_iff.mpr ?_
  intro step hstep
  have hnone := (List.mem_filter.mp hstep).2
  exact Option.isNone_iff_eq_none.mp hnone

variable {start : S}

/-- The calls leave the conditions, and the other steps the rest. -/
theorem Separated.foldl_start (h : Separated apply set call?) (hstart : set start .none = start)
    (steps : List T) :
    steps.foldl apply start =
      set ((steps.filter fun step => (call? step).isNone).foldl apply start)
        (WhereClause.none.applyAll (steps.filterMap call?)) := by
  have hfoldl := h.foldl_apply steps start .none
  rwa [hstart] at hfoldl

/-- The other steps leave no conditions. -/
theorem Separated.set_others (h : Separated apply set call?) (hstart : set start .none = start)
    (steps : List T) :
    set ((steps.filter fun step => (call? step).isNone).foldl apply start) .none =
      (steps.filter fun step => (call? step).isNone).foldl apply start := by
  have hfoldl := h.foldl_start hstart (steps.filter fun step => (call? step).isNone)
  simp only [List.filter_filter, Bool.and_self, filterMap_others, applyAll_nil] at hfoldl
  exact hfoldl.symm

/-- The clause that calls leave composes when the conditions of the calls that count do. -/
theorem exists_texts_of_calls {calls : List Call}
    (h : ∀ call ∈ Call.current calls, ∃ text, call.condition.compile = .ok text) :
    ∃ texts, (Call.terms (Call.current calls)).mapM Term.compile = .ok texts ∧
      (none.applyAll calls).compile = .ok texts := by
  have hconditions : ∀ c, .condition c ∈ Call.terms (Call.current calls) →
      ∃ text, c.compile = .ok text := by
    intro c hc
    obtain ⟨call, hcall, rfl⟩ := mem_terms_of_calls hc
    exact h call hcall
  obtain ⟨texts, htexts⟩ := exists_texts hconditions
  refine ⟨texts, htexts, ?_⟩
  unfold compile
  rw [terms_of_calls, htexts]

/-- The calls that count say what stands in the clause, and how the statement composes where
    composing it puts the texts of conditions that compose into the rest. -/
theorem Separated.section_of_calls (h : Separated apply set call?)
    (hstart : set start .none = start) (conditions : S → WhereClause)
    (hconditions : ∀ s cs, conditions (set s cs) = cs) (compose : S → Composed String)
    (composeWith : List String → S → Composed String)
    (hcompose : ∀ {s cs texts}, compile cs = .ok texts →
      compose (set s cs) = composeWith texts (set s .none)) (steps : List T) :
    let s := steps.foldl apply start
    let calls := Call.current (steps.filterMap call?)
    let others := steps.filter fun step => (call? step).isNone
    (conditions s).Records calls ∧
      ((∀ call ∈ calls, ∃ text, call.condition.compile = .ok text) →
        ∃ texts, (Call.terms calls).mapM Term.compile = .ok texts ∧
          compose s = composeWith texts (others.foldl apply start)) ∧
      ∀ steps' : List T, steps'.filter (fun step => (call? step).isNone) = others →
        Call.current (steps'.filterMap call?) = calls →
          compose (steps'.foldl apply start) = compose s := by
  intro s calls others
  have hs : s = set (others.foldl apply start) (none.applyAll (steps.filterMap call?)) :=
    h.foldl_start hstart steps
  refine ⟨?_, ?_, ?_⟩
  · rw [hs, hconditions]
    exact records_applyAll (steps.filterMap call?)
  · intro hcalls
    obtain ⟨texts, hterms, hclause⟩ := exists_texts_of_calls hcalls
    refine ⟨texts, hterms, ?_⟩
    rw [hs, hcompose hclause, h.set_others hstart]
  · intro steps' hothers hcalls
    rw [hs, h.foldl_start hstart steps', hothers, applyAll_eq_of_current hcalls]

end Steps

end WhereClause

/-! ### SELECT -/

namespace Select

variable {F : Type}

/-- The call of the WHERE clause that a step is, if it is one. -/
def Step.call? : Step F → Option WhereClause.Call
  | only c => some (.only c)
  | join k c => some (.join k c)
  | _ => none

/-- The calls of the WHERE clause among the steps. -/
def calls (steps : List (Step F)) : List WhereClause.Call :=
  steps.filterMap Step.call?

/-- The steps that do not call the WHERE clause. -/
def otherSteps (steps : List (Step F)) : List (Step F) :=
  steps.filter fun step => step.call?.isNone

/-- The SELECT with other conditions. -/
def withConditions (s : Select F) (cs : WhereClause) : Select F :=
  { s with conditions := cs }

theorem separated : WhereClause.Separated (apply (F := F)) withConditions Step.call? where
  apply_call := by
    intro step call h s cs
    cases step <;> cases h <;> rfl
  apply_other := by
    intro step h s cs
    cases step <;> first | rfl | cases h

/-- Conditions that compose leave success to the other parts, and their texts stand between the
    source and what follows. -/
theorem compile_withConditions {s : Select Fragment} {cs : WhereClause} {texts : List String}
    (h : cs.compile = .ok texts) :
    (Statement.select (s.withConditions cs)).compile =
      (fun c => c.selecting ++ (" FROM " ++ c.source) ++ whereSection texts ++ c.further) <$>
        (s.withConditions .none).clauses := by
  have hnone : WhereClause.none.compile = .ok [] := rfl
  obtain ⟨fields, measurement, policy, conditions, groupBy, orderBy, limit, offset, seriesLimit,
    seriesOffset, fill⟩ := s
  rw [compile_eq_clauses]
  unfold clauses withConditions
  cases measurement with
  | none => simp only [Composed.map_error]
  | some measurement =>
      simp only [h, hnone, map_bind, map_pure, Composed.ok_bind, Clauses.text_eq]
      rfl

end Select

/-! ### DELETE -/

namespace Delete

variable {F : Type}

/-- The call of the WHERE clause that a step is, if it is one. -/
def Step.call? : Step F → Option WhereClause.Call
  | only c => some (.only c)
  | join k c => some (.join k c)
  | measurement _ => none

/-- The calls of the WHERE clause among the steps. -/
def calls (steps : List (Step F)) : List WhereClause.Call :=
  steps.filterMap Step.call?

/-- The steps that do not call the WHERE clause. -/
def otherSteps (steps : List (Step F)) : List (Step F) :=
  steps.filter fun step => step.call?.isNone

/-- The DELETE with other conditions. -/
def withConditions (s : Delete F) (cs : WhereClause) : Delete F :=
  { s with conditions := cs }

theorem separated : WhereClause.Separated (apply (F := F)) withConditions Step.call? where
  apply_call := by
    intro step call h s cs
    cases step <;> cases h <;> rfl
  apply_other := by
    intro step h s cs
    cases step <;> first | rfl | cases h

/-- Conditions that compose leave success to the measurement, and their texts stand behind it. -/
theorem compile_withConditions {s : Delete Fragment} {cs : WhereClause} {texts : List String}
    (h : cs.compile = .ok texts) :
    (Statement.delete (s.withConditions cs)).compile =
      (fun c => c.deleting ++ whereSection texts) <$> (s.withConditions .none).clauses := by
  have hnone : WhereClause.none.compile = .ok [] := rfl
  obtain ⟨measurement, conditions⟩ := s
  rw [compile_eq_clauses]
  unfold clauses withConditions
  cases measurement with
  | none => simp only [Composed.map_error]
  | some measurement =>
      simp only [h, hnone, map_bind, map_pure, Composed.ok_bind, Clauses.text_eq]
      rfl

end Delete

/-! ### The section -/

/--
**The WHERE section is what the calls that count leave.**  Whatever steps put a SELECT or a
DELETE together, the terms of its conditions are the condition of the last call that starts
over (of the first call, when none does) and the conjunction and condition of each call behind
it; so conditions and conjunctions alternate, and no conjunction comes first or last.  When these
conditions compose, the statement is that of the other steps with their texts as its WHERE
section, and it composes exactly when that of the other steps does.  Calls that do not count
change neither the text nor the failure.
-/
theorem where_section_of_calls :
    (∀ (fields : List Fragment) (steps : List (Select.Step Fragment)),
      let s := (Select.ofFields fields).applyAll steps
      let calls := WhereClause.Call.current (Select.calls steps)
      s.conditions.Records calls ∧
      ((∀ call ∈ calls, ∃ text, call.condition.compile = .ok text) →
        ∃ texts, (WhereClause.Call.terms calls).mapM WhereClause.Term.compile = .ok texts ∧
          (Statement.select s).compile =
            (fun c => c.selecting ++ (" FROM " ++ c.source) ++ whereSection texts ++ c.further) <$>
              ((Select.ofFields fields).applyAll (Select.otherSteps steps)).clauses) ∧
      ∀ steps', Select.otherSteps steps' = Select.otherSteps steps →
        WhereClause.Call.current (Select.calls steps') = calls →
          (Statement.select ((Select.ofFields fields).applyAll steps')).compile =
            (Statement.select s).compile) ∧
    (∀ steps : List (Delete.Step Fragment),
      let s := (Delete.empty : Delete Fragment).applyAll steps
      let calls := WhereClause.Call.current (Delete.calls steps)
      s.conditions.Records calls ∧
      ((∀ call ∈ calls, ∃ text, call.condition.compile = .ok text) →
        ∃ texts, (WhereClause.Call.terms calls).mapM WhereClause.Term.compile = .ok texts ∧
          (Statement.delete s).compile =
            (fun c => c.deleting ++ whereSection texts) <$>
              (Delete.empty.applyAll (Delete.otherSteps steps)).clauses) ∧
      ∀ steps', Delete.otherSteps steps' = Delete.otherSteps steps →
        WhereClause.Call.current (Delete.calls steps') = calls →
          (Statement.delete (Delete.empty.applyAll steps')).compile =
            (Statement.delete s).compile) := by
  constructor
  · intro fields steps
    have hstart : (Select.ofFields fields).withConditions .none = Select.ofFields fields := rfl
    exact Select.separated.section_of_calls hstart Select.conditions (fun _ _ => rfl)
      (fun s => (Statement.select s).compile)
      (fun texts (s : Select Fragment) =>
        (fun c : Select.Clauses =>
          c.selecting ++ (" FROM " ++ c.source) ++ whereSection texts ++ c.further) <$> s.clauses)
      (fun h => Select.compile_withConditions h) steps
  · intro steps
    have hstart : (Delete.empty : Delete Fragment).withConditions .none = Delete.empty := rfl
    exact Delete.separated.section_of_calls hstart Delete.conditions (fun _ _ => rfl)
      (fun s => (Statement.delete s).compile)
      (fun texts s => (fun c => c.deleting ++ whereSection texts) <$> s.clauses)
      (fun h => Delete.compile_withConditions h) steps

/-- Steps that start over once, with a condition before that does not compose. -/
def Select.restarted : List (Select.Step Fragment) :=
  [.join .or ⟨"a b c", [.int 1]⟩, .limit 1, .only ⟨"c", [.int 3]⟩, .measurement (.name "m"),
    .join .or ⟨"x > y", []⟩, .join .and ⟨"host", [.text "a"]⟩]

/-- What came before the last start leaves no trace, not even its failure. -/
theorem where_section_of_restarted :
    (∀ call ∈ WhereClause.Call.current (Select.calls Select.restarted),
      ∃ text, call.condition.compile = .ok text) ∧
    (Statement.select ((Select.ofFields []).applyAll Select.restarted)).compile =
      .ok "SELECT * FROM \"m\" WHERE \"c\" = 3 OR x > y AND \"host\" = 'a' LIMIT 1" := by
  have hcalls : ∀ call ∈ WhereClause.Call.current (Select.calls Select.restarted),
      ∃ text, call.condition.compile = .ok text := by
    intro call hcall
    have hmem : call ∈ [WhereClause.Call.only ⟨"c", [.int 3]⟩, .join .or ⟨"x > y", []⟩,
      .join .and ⟨"host", [.text "a"]⟩] := hcall
    simp only [List.mem_cons, List.not_mem_nil, or_false] at hmem
    rcases hmem with rfl | rfl | rfl
    · exact ⟨"\"c\" = 3", rfl⟩
    · exact ⟨"x > y", rfl⟩
    · exact ⟨"\"host\" = 'a'", rfl⟩
  refine ⟨hcalls, ?_⟩
  obtain ⟨texts, hterms, hcompile⟩ := (where_section_of_calls.1 [] Select.restarted).2.1 hcalls
  have htexts : texts = ["\"c\" = 3", "OR", "x > y", "AND", "\"host\" = 'a'"] := by
    cases hterms
    rfl
  rw [hcompile, htexts]
  rfl

end SeriesQuery
