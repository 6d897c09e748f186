/-
The calls that make up a WHERE clause.

A call either starts the clause over or joins one more condition to it.  What came before a call
that starts over is forgotten, so only the last such call and the calls behind it count, and
when no call starts over they all do.  The first call that counts gives its condition alone,
each later one its conjunction and its condition: the clause is the terms of these calls, and
conditions and conjunctions alternate in it.
-/
import SeriesQuery.WhereClause

namespace SeriesQuery.WhereClause

/-- A call that changes a WHERE clause. -/
inductive Call where
  /-- Starts the clause over with one condition. -/
  | only (c : Condition)
  /-- Adds a condition to the clause. -/
  | join (k : Conjunction) (c : Condition)

namespace Call

/-- The condition that the call brings. -/
def condition : Call → Condition
  | only c => c
  | join _ c => c

/-- Whether the call forgets what was there. -/
def startsOver : Call → Bool
  | only _ => true
  | join _ _ => false

/-- The calls that count: the last one that starts over and those behind it; all of them, when
    none starts over. -/
def current : List Call → List Call
  | [] => []
  | call :: calls => if calls.any startsOver then current calls else call :: calls

/-- The terms of a call behind other conditions. -/
def laterTerms : Call → List Term
  | only c => [.condition c]
  | join k c => [.conjunction k, .condition c]

/-- The terms of calls, the first without its conjunction. -/
def terms : List Call → List Term
  | [] => []
  | first :: later => .condition first.condition :: later.flatMap laterTerms

end Call

/-- The clause after one more call. -/
def apply (cs : WhereClause) : Call → WhereClause
  | .only c => only c
  | .join k c => cs.join k c

/-- The clause after a list of calls. -/
def applyAll (cs : WhereClause) (calls : List Call) : WhereClause :=
  calls.foldl apply cs

@[simp] theorem applyAll_nil (cs : WhereClause) : cs.applyAll [] = cs := rfl

@[simp] theorem applyAll_cons (cs : WhereClause) (call : Call) (calls : List Call) :
    cs.applyAll (call :: calls) = (cs.apply call).applyAll calls := rfl

/-! ### What the calls leave -/

/-- Behind a call that starts over nothing shows what was there before. -/
theorem applyAll_of_startsOver {calls : List Call} (h : calls.any Call.startsOver = true) :
    ∀ cs cs' : WhereClause, cs.applyAll calls = cs'.applyAll calls := by
  induction calls with
  | nil => cases h
  | cons call calls ih =>
      intro cs cs'
      cases call with
      | only c => rfl
      | join k c =>
          rw [List.any_cons, Call.startsOver, Bool.false_or] at h
          exact ih h _ _

/-- The calls that count leave the clause that all the calls leave. -/
theorem applyAll_current (calls : List Call) :
    none.applyAll (Call.current calls) = none.applyAll calls := by
  induction calls with
  | nil => rfl
  | cons call calls ih =>
      unfold Call.current
      split
      · rename_i h
        rw [ih, applyAll_cons]
        exact applyAll_of_startsOver h _ _
      · rfl

theorem applyAll_eq_of_current {calls calls' : List Call}
    (h : Call.current calls = Call.current calls') :
    none.applyAll calls = none.applyAll calls' := by
  rw [← applyAll_current calls, h, applyAll_current]

/-- Behind the first call that counts no call starts over. -/
theorem startsOver_of_mem_tail_current {calls : List Call} {call : Call}
    (h : call ∈ (Call.current calls).tail) : call.startsOver = false := by
  induction calls with
  | nil => cases h
  | cons first calls ih =>
      unfold Call.current at h
      split at h
      · exact ih h
      · rename_i hnone
        have hall := List.any_eq_false.mp (Bool.eq_false_iff.mpr hnone)
        exact Bool.eq_false_iff.mpr (hall call h)

/-- Each call that does not start over adds its terms at the end. -/
theorem terms_applyAll {calls : List Call} (h : ∀ call ∈ calls, call.startsOver = false) :
    ∀ (first : Condition) (rest : List (Conjunction × Condition)),
      ((chain first rest).applyAll calls).terms =
        (chain first rest).terms ++ calls.flatMap Call.laterTerms := by
  induction calls with
  | nil =>
      intro first rest
      exact (List.append_nil _).symm
  | cons call calls ih =>
      intro first rest
      have hrest := ih fun call hcall => h call (List.mem_cons_of_mem _ hcall)
      cases call with
      | only c => cases h _ List.mem_cons_self
      | join k c =>
          rw [applyAll_cons, apply, join, hrest, List.flatMap_cons, ← List.append_assoc]
          congr 1
          exact terms_join_chain k c first rest

/-- The clause that calls leave has the terms of the calls that count. -/
theorem terms_of_calls (calls : List Call) :
    (none.applyAll calls).terms = Call.terms (Call.current calls) := by
  have htail : ∀ call ∈ (Call.current calls).tail, call.startsOver = false :=
    fun _ hcall => startsOver_of_mem_tail_current hcall
  rw [← applyAll_current]
  cases hcalls : Call.current calls with
  | nil => rfl
  | cons first later =>
      rw [hcalls, List.tail_cons] at htail
      have hfirst : none.apply first = chain first.condition [] := by
        cases first <;> rfl
      rw [applyAll_cons, hfirst, terms_applyAll htail]
      rfl

/-! ### The order of terms -/

/-- A condition, and behind it any number of times a conjunction and a condition. -/
inductive Alternates : List Term → Prop
  | single (c : Condition) : Alternates [.condition c]
  | behind (c : Condition) (k : Conjunction) {terms : List Term} (h : Alternates terms) :
      Alternates (.condition c :: .conjunction k :: terms)

theorem alternates_terms_chain (first : Condition) (rest : List (Conjunction × Condition)) :
    Alternates (chain first rest).terms := by
  induction rest generalizing first with
  | nil => exact Alternates.single first
  | cons x rest ih => exact Alternates.behind first x.1 (ih x.2)

/-- No conjunction comes first or last. -/
theorem Alternates.ends {terms : List Term} (h : Alternates terms) (k : Conjunction) :
    terms.head? ≠ some (.conjunction k) ∧ terms.getLast? ≠ some (.conjunction k) := by
  induction h with
  | single c => simp
  | behind c k' h ih =>
      refine ⟨by simp, ?_⟩
      rw [List.getLast?_cons_cons]
      cases h with
      | single c' => simp
      | behind c' k'' h' =>
          rw [List.getLast?_cons_cons]
          exact ih.2

/-- The clause is what the calls leave, and well formed. -/
structure Records (cs : WhereClause) (calls : List Call) : Prop where
  /-- The terms are those of the calls. -/
  terms_eq : cs.terms = Call.terms calls
  /-- Without a call there is no term; else conditions and conjunctions alternate. -/
  alternates : (calls = [] ∧ cs.terms = []) ∨ Alternates cs.terms
  /-- No conjunction comes first. -/
  head?_ne : ∀ k, cs.terms.head? ≠ some (.conjunction k)
  /-- No conjunction comes last. -/
  getLast?_ne : ∀ k, cs.terms.getLast? ≠ some (.conjunction k)

theorem records_applyAll (calls : List Call) :
    (none.applyAll calls).Records (Call.current calls) := by
  have hterms := terms_of_calls calls
  cases hclause : none.applyAll calls with
  | none =>
      rw [hclause] at hterms
      have hnil : Call.current calls = [] := by
        cases h : Call.current calls with
        | nil => rfl
        | cons first later =>
            rw [h] at hterms
            cases hterms
      exact ⟨hterms, Or.inl ⟨hnil, rfl⟩, fun k => by simp [terms], fun k => by simp [terms]⟩
  | chain first rest =>
      rw [hclause] at hterms
      have halternates := alternates_terms_chain first rest
      exact ⟨hterms, Or.inr halternates, fun k => (halternates.ends k).1,
        fun k => (halternates.ends k).2⟩

/-! ### Composing -/

/-- Terms compose when their conditions do. -/
theorem exists_texts {terms : List Term}
    (h : ∀ c, .condition c ∈ terms → ∃ text, c.compile = .ok text) :
    ∃ texts, terms.mapM Term.compile = .ok texts := by
  induction terms with
  | nil => exact ⟨[], rfl⟩
  | cons term terms ih =>
      obtain ⟨texts, htexts⟩ := ih fun c hc => h c (List.mem_cons_of_mem _ hc)
      have hterm : ∃ text, term.compile = .ok text := by
        cases term with
        | condition c => exact h c List.mem_cons_self
        | conjunction k => exact ⟨k.keyword, rfl⟩
      obtain ⟨text, htext⟩ := hterm
      refine ⟨text :: texts, ?_⟩
      rw [List.mapM_cons, htext, htexts]
      rfl

theorem mem_terms_of_calls {calls : List Call} {c : Condition}
    (h : .condition c ∈ Call.terms calls) : ∃ call ∈ calls, call.condition = c := by
  cases calls with
  | nil => cases h
  | cons first later =>
      rcases List.mem_cons.mp h with heq | h
      · cases heq
        exact ⟨first, List.mem_cons_self, rfl⟩
      · obtain ⟨call, hcall, hterm⟩ := List.mem_flatMap.mp h
        refine ⟨call, List.mem_cons_of_mem _ hcall, ?_⟩
        cases call <;> simp_all [Call.laterTerms, Call.condition]

end SeriesQuery.WhereClause
