/-
Composing step by step.

A step that fails is the failure of the whole, and a step that succeeds hands its result on.
Where a list of things is composed one by one, the first that fails is the failure of the whole.
So whatever composing looks at can be listed beforehand, and the first of the list that fails
tells the outcome.
-/
import Mathlib.Data.List.Forall2
import SeriesQuery.Error

namespace SeriesQuery.Composed

variable {α β : Type}

theorem ok_bind (a : α) (f : α → Composed β) : (Except.ok a : Composed α) >>= f = f a :=
  rfl

theorem error_bind (e : ComposeError) (f : α → Composed β) :
    (Except.error e : Composed α) >>= f = .error e :=
  rfl

theorem map_ok (f : α → β) (a : α) : f <$> (Except.ok a : Composed α) = .ok (f a) :=
  rfl

theorem map_error (f : α → β) (e : ComposeError) :
    f <$> (Except.error e : Composed α) = .error e :=
  rfl

theorem bind_eq_ok_iff {x : Composed α} {f : α → Composed β} {b : β} :
    x >>= f = .ok b ↔ ∃ a, x = .ok a ∧ f a = .ok b := by
  cases x with
  | error e => simp [error_bind]
  | ok a => simp [ok_bind]

theorem map_eq_ok_iff {x : Composed α} {f : α → β} {b : β} :
    f <$> x = .ok b ↔ ∃ a, x = .ok a ∧ f a = b := by
  cases x with
  | error e =>
      rw [map_error]
      simp
  | ok a =>
      rw [map_ok]
      simp

/-! ### Options -/

/-- What may be absent is composed exactly when it is absent or composed. -/
theorem option_mapM_eq_ok_iff {f : α → Composed β} {a : Option α} {b : Option β} :
    a.mapM f = .ok b ↔ Option.Rel (fun a b => f a = .ok b) a b := by
  cases a with
  | none =>
      show Except.ok none = Except.ok b ↔ _
      constructor
      · rintro ⟨⟩
        exact .none
      · rintro ⟨⟩
        rfl
  | some a =>
      rw [Option.mapM_some, map_eq_ok_iff]
      constructor
      · rintro ⟨b, hb, rfl⟩
        exact .some hb
      · rintro ⟨hb⟩
        exact ⟨_, hb, rfl⟩

/-! ### Lists -/

theorem mapM_cons_error {f : α → Composed β} {a : α} {e : ComposeError} (h : f a = .error e)
    (as : List α) : (a :: as).mapM f = .error e := by
  rw [List.mapM_cons, h]
  rfl

theorem mapM_cons_ok {f : α → Composed β} {a : α} {b : β} (h : f a = .ok b) (as : List α) :
    (a :: as).mapM f = (b :: ·) <$> as.mapM f := by
  rw [List.mapM_cons, h]
  cases as.mapM f <;> rfl

/-- All is composed exactly when each thing is. -/
theorem mapM_eq_ok_iff {f : α → Composed β} {as : List α} {bs : List β} :
    as.mapM f = .ok bs ↔ List.Forall₂ (fun a b => f a = .ok b) as bs := by
  induction as generalizing bs with
  | nil =>
      rw [List.forall₂_nil_left_iff]
      exact ⟨fun h => by cases h; rfl, fun h => by rw [h]; rfl⟩
  | cons a as ih =>
      rw [List.forall₂_cons_left_iff]
      cases ha : f a with
      | error e =>
          rw [mapM_cons_error ha]
          simp
      | ok b =>
          rw [mapM_cons_ok ha, map_eq_ok_iff]
          simp only [ih, Except.ok.injEq]
          constructor
          · rintro ⟨bs, hbs, rfl⟩
            exact ⟨b, bs, rfl, hbs, rfl⟩
          · rintro ⟨b, bs, rfl, hbs, rfl⟩
            exact ⟨bs, hbs, rfl⟩

/-- Lists of things that compose alike, one by one, compose alike. -/
theorem mapM_congr_of_forall₂ {R : α → α → Prop} {f : α → Composed β} {as as' : List α}
    (hf : ∀ a a', R a a' → f a = f a') (h : List.Forall₂ R as as') : as.mapM f = as'.mapM f := by
  induction h with
  | nil => rfl
  | cons ha _ ih => rw [List.mapM_cons, List.mapM_cons, hf _ _ ha, ih]

/-- A failure is that of the first thing that fails, whatever stands behind it. -/
theorem mapM_eq_error_iff {f : α → Composed β} {as : List α} {e : ComposeError} :
    as.mapM f = .error e ↔ ∃ before a after, as = before ++ a :: after ∧
      (∀ x ∈ before, ∃ b, f x = .ok b) ∧ f a = .error e := by
  constructor
  · intro h
    induction as with
    | nil => cases h
    | cons a as ih =>
        cases ha : f a with
        | error e' =>
            rw [mapM_cons_error ha] at h
            cases h
            exact ⟨[], a, as, rfl, by simp, ha⟩
        | ok b =>
            rw [mapM_cons_ok ha] at h
            have hrest : as.mapM f = .error e := by
              cases hrest : as.mapM f with
              | ok bs =>
                  rw [hrest] at h
                  cases h
              | error e' =>
                  rw [hrest] at h
                  cases h
                  rfl
            obtain ⟨before, a', after, rfl, hbefore, ha'⟩ := ih hrest
            exact ⟨a :: before, a', after, rfl, List.forall_mem_cons.mpr ⟨⟨b, ha⟩, hbefore⟩, ha'⟩
  · rintro ⟨before, a, after, rfl, hbefore, ha⟩
    induction before with
    | nil => exact mapM_cons_error ha after
    | cons a' before ih =>
        obtain ⟨⟨b, hb⟩, hbefore⟩ := List.forall_mem_cons.mp hbefore
        rw [List.cons_append, mapM_cons_ok hb, ih hbefore, map_error]

/-! ### Steps -/

section Steps

variable {S S' T T' : Type}

/-- Takes steps one after the other, up to the first that fails. -/
def takeSteps (apply : S → T → S) (start : S) (steps : List (Composed T)) : Composed S :=
  steps.foldlM (fun s step => apply s <$> step) start

/-- The step that something given leads to; none where nothing is given. -/
def given (step : β → T) (read : α → Composed β) (a : Option α) : List (Composed T) :=
  (a.map fun a => step <$> read a).toList

theorem takeSteps_nil (apply : S → T → S) (start : S) : takeSteps apply start [] = .ok start :=
  rfl

theorem takeSteps_cons (apply : S → T → S) (start : S) (step : Composed T)
    (steps : List (Composed T)) :
    takeSteps apply start (step :: steps) =
      step >>= fun t => takeSteps apply (apply start t) steps := by
  unfold takeSteps
  rw [List.foldlM_cons, map_eq_pure_bind, bind_assoc]
  simp only [pure_bind]

theorem takeSteps_singleton (apply : S → T → S) (start : S) (step : Composed T) :
    takeSteps apply start [step] = apply start <$> step := by
  rw [takeSteps_cons, map_eq_pure_bind]
  exact bind_congr fun t => takeSteps_nil apply (apply start t)

theorem takeSteps_append (apply : S → T → S) (start : S) (steps steps' : List (Composed T)) :
    takeSteps apply start (steps ++ steps') =
      takeSteps apply start steps >>= fun s => takeSteps apply s steps' :=
  List.foldlM_append

/-- What the steps leave, when none of them fails; otherwise the first failure among them. -/
theorem takeSteps_eq (apply : S → T → S) (start : S) (steps : List (Composed T)) :
    takeSteps apply start steps = (fun ts => ts.foldl apply start) <$> steps.mapM id := by
  induction steps generalizing start with
  | nil => rfl
  | cons step steps ih =>
      rw [takeSteps_cons, List.mapM_cons, map_bind]
      refine bind_congr fun t => ?_
      rw [ih, map_bind, map_eq_pure_bind]
      simp only [map_pure, List.foldl_cons]

/-- The part that a step sets becomes what is given, as far as it can be read. -/
theorem takeSteps_given (apply : S → T → S) (step : β → T) (set : S → Option β → S)
    (hsome : ∀ s b, apply s (step b) = set s (some b)) (hnone : ∀ s, set s none = s) (start : S)
    (read : α → Composed β) (a : Option α) :
    takeSteps apply start (given step read a) = set start <$> a.mapM read := by
  cases a with
  | none =>
      show Except.ok start = Except.ok (set start none)
      rw [hnone]
  | some a =>
      show takeSteps apply start [step <$> read a] = _
      rw [takeSteps_singleton, Option.mapM_some, Functor.map_map, Functor.map_map]
      exact congrArg (· <$> _) (funext (hsome start))

/-- Steps that change a part of a whole leave the whole with the part that they leave. -/
theorem takeSteps_map {apply : S → T → S} {apply' : S' → T' → S'} {step : T' → T} {set : S' → S}
    (h : ∀ s t, apply (set s) (step t) = set (apply' s t)) (start : S')
    (steps : List (Composed T')) :
    takeSteps apply (set start) (steps.map (step <$> ·)) =
      set <$> takeSteps apply' start steps := by
  induction steps generalizing start with
  | nil => rfl
  | cons t steps ih =>
      rw [List.map_cons, takeSteps_cons, takeSteps_cons, map_bind, map_eq_pure_bind step t,
        bind_assoc]
      refine bind_congr fun t' => ?_
      rw [pure_bind, h, ih]

end Steps

/-! ### The first failure -/

/-- Why composing failed, if it did. -/
def failure? : Composed α → Option ComposeError
  | .ok _ => none
  | .error e => some e

theorem failure?_eq_none_iff {x : Composed α} : failure? x = none ↔ ∃ a, x = .ok a := by
  cases x <;> simp [failure?]

theorem failure?_eq_some_iff {x : Composed α} {e : ComposeError} :
    failure? x = some e ↔ x = .error e := by
  cases x <;> simp [failure?]

/-- The outcome is told by looking at things one after the other, each of which may fail: the
    first that fails is the failure. -/
def FailsAtFirst {ι : Type} (failure : ι → Option ComposeError) (x : Composed α) (l : List ι) :
    Prop :=
  failure? x = l.findSome? failure

namespace FailsAtFirst

variable {ι κ : Type} {failure : ι → Option ComposeError} {x : Composed α} {l m : List ι}

theorem ok (a : α) : FailsAtFirst failure (.ok a) [] :=
  rfl

theorem single {i : ι} (h : failure? x = failure i) : FailsAtFirst failure x [i] := by
  unfold FailsAtFirst
  rw [List.findSome?_singleton]
  exact h

theorem passing {i : ι} (hpass : failure i = none) (h : FailsAtFirst failure x l) :
    FailsAtFirst failure x (i :: l) := by
  unfold FailsAtFirst
  rw [List.findSome?_cons, hpass]
  exact h

/-- What comes behind is looked at only once the first part has composed. -/
theorem bind {k : α → Composed β} (hx : FailsAtFirst failure x l)
    (hk : ∀ a, x = .ok a → FailsAtFirst failure (k a) m) :
    FailsAtFirst failure (x >>= k) (l ++ m) := by
  unfold FailsAtFirst at hx ⊢
  rw [List.findSome?_append, ← hx]
  cases x with
  | error e => rfl
  | ok a => exact hk a rfl

/-- Writing text around what was composed looks at nothing. -/
theorem map (hx : FailsAtFirst failure x l) (f : α → β) :
    FailsAtFirst failure (x >>= fun a => pure (f a)) l := by
  unfold FailsAtFirst at hx ⊢
  rw [← hx]
  cases x <;> rfl

theorem functor_map (hx : FailsAtFirst failure x l) (f : α → β) :
    FailsAtFirst failure (f <$> x) l := by
  rw [map_eq_pure_bind]
  exact hx.map f

theorem mapM {f : α → Composed β} {looks : α → List ι}
    (h : ∀ a, FailsAtFirst failure (f a) (looks a)) (as : List α) :
    FailsAtFirst failure (as.mapM f) (as.flatMap looks) := by
  induction as with
  | nil => exact ok _
  | cons a as ih =>
      rw [List.mapM_cons, List.flatMap_cons]
      exact (h a).bind fun _ _ => ih.map _

/-- Other things that fail alike may be looked at. -/
theorem of_map {failure' : κ → Option ComposeError} {g : κ → ι} {ks : List κ}
    (hfailure : ∀ k, failure (g k) = failure' k) (h : FailsAtFirst failure' x ks) :
    FailsAtFirst failure x (ks.map g) := by
  have hcomp : failure ∘ g = failure' := funext hfailure
  unfold FailsAtFirst at h ⊢
  rw [List.findSome?_map, hcomp, h]

/-- All is well exactly when nothing fails. -/
theorem exists_ok_iff (h : FailsAtFirst failure x l) :
    (∃ a, x = .ok a) ↔ ∀ i ∈ l, failure i = none := by
  rw [← failure?_eq_none_iff, h, List.findSome?_eq_none_iff]

/-- The failure is that of a thing behind others that do not fail. -/
theorem error_iff (h : FailsAtFirst failure x l) (e : ComposeError) :
    x = .error e ↔ ∃ before i after, l = before ++ i :: after ∧
      failure i = some e ∧ ∀ b ∈ before, failure b = none := by
  rw [← failure?_eq_some_iff, h, List.findSome?_eq_some_iff]

end FailsAtFirst

end SeriesQuery.Composed
