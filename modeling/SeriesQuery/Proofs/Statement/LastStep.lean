/-
Steps that set parts.

A statement is put together by steps, and most steps set one part of it, whatever that part was
before.  Two facts about single steps are enough to know what a list of them leaves: steps for
different parts may change places, and behind a step the earlier ones for its part do not show.
So the last step for a part can be moved to the end and the earlier ones dropped.  Doing this for
one part after another shows that only the last step for each part counts.
-/
import Mathlib.Data.List.Basic
import Mathlib.Data.List.Induction

namespace SeriesQuery

section

variable {S T K : Type} [DecidableEq K]

/-- The last of the steps that set a part. -/
def lastOf (part? : T → Option K) (k : K) (steps : List T) : Option T :=
  (steps.filter fun step => part? step = some k).getLast?

/-- The steps that do not set a part. -/
def without (part? : T → Option K) (k : K) (steps : List T) : List T :=
  steps.filter fun step => part? step ≠ some k

/-- Steps that each set the part that `part?` says, if they set one. -/
structure SetsParts (apply : S → T → S) (part? : T → Option K) : Prop where
  /-- Steps for different parts may change places. -/
  comm : ∀ {t u : T} {k l : K}, part? t = some k → part? u = some l → k ≠ l →
    ∀ s, apply (apply s t) u = apply (apply s u) t
  /-- Behind a step no earlier step for the same part shows. -/
  absorb : ∀ {t u : T} {k : K}, part? t = some k → part? u = some k →
    ∀ s, apply (apply s t) u = apply s u

variable {part? : T → Option K} {k : K}

/-! ### The last step for a part -/

theorem lastOf_concat (steps : List T) (t : T) :
    lastOf part? k (steps ++ [t]) = if part? t = some k then some t else lastOf part? k steps := by
  unfold lastOf
  split <;> rename_i h <;> simp [h]

theorem without_concat (steps : List T) (t : T) :
    without part? k (steps ++ [t]) =
      if part? t = some k then without part? k steps else without part? k steps ++ [t] := by
  unfold without
  split <;> rename_i h <;> simp [h]

theorem lastOf_eq_none_iff {steps : List T} :
    lastOf part? k steps = none ↔ ∀ t ∈ steps, part? t ≠ some k := by
  simp [lastOf]

/-- Dropping the steps for one part leaves the last steps for the others. -/
theorem lastOf_without {l : K} (steps : List T) :
    lastOf part? l (without part? k steps) = if l = k then none else lastOf part? l steps := by
  split
  · rename_i h
    subst h
    refine lastOf_eq_none_iff.mpr ?_
    intro t ht
    simpa using (List.mem_filter.mp ht).2
  · rename_i h
    unfold lastOf without
    rw [List.filter_filter]
    congr 2
    funext t
    by_cases hl : part? t = some l
    · simp [hl, h]
    · simp [hl]

/-- A step is the last for no part when each part it sets has a later one. -/
theorem lastOf_drop {before after : List T} {step : T}
    (h : ∀ l, part? step = some l → ∃ later ∈ after, part? later = some l) :
    lastOf part? k (before ++ step :: after) = lastOf part? k (before ++ after) := by
  unfold lastOf
  simp only [List.filter_append, List.filter_cons]
  split
  · rename_i hstep
    obtain ⟨later, hlater, hpart⟩ := h k (by simpa using hstep)
    have hne : after.filter (fun step => part? step = some k) ≠ [] :=
      List.ne_nil_of_mem (List.mem_filter.mpr ⟨hlater, by simpa using hpart⟩)
    rw [List.getLast?_append_of_ne_nil _ (List.cons_ne_nil _ _),
      List.getLast?_append_of_ne_nil _ hne]
    exact List.getLast?_append_of_ne_nil [step] hne
  · rfl

/-- Where one step alone sets a part, its presence is all there is to say. -/
theorem lastOf_eq_of_mem_iff {t : T} (honly : ∀ u, part? u = some k ↔ u = t) {ts us : List T}
    (h : t ∈ ts ↔ t ∈ us) : lastOf part? k ts = lastOf part? k us := by
  have hlast (steps : List T) : lastOf part? k steps = some t ↔ t ∈ steps := by
    constructor
    · intro hsome
      exact (List.mem_filter.mp (List.mem_of_getLast? hsome)).1
    · intro hmem
      cases hl : lastOf part? k steps with
      | none => exact absurd ((honly t).mpr rfl) (lastOf_eq_none_iff.mp hl t hmem)
      | some u =>
          have hu := (List.mem_filter.mp (List.mem_of_getLast? hl)).2
          rw [(honly u).mp (by simpa using hu)]
  by_cases hmem : t ∈ ts
  · rw [(hlast ts).mpr hmem, (hlast us).mpr (h.mp hmem)]
  · have hnone (steps : List T) (hs : t ∉ steps) : lastOf part? k steps = none := by
      refine lastOf_eq_none_iff.mpr ?_
      intro u hu hpart
      rw [(honly u).mp hpart] at hu
      exact hs hu
    rw [hnone ts hmem, hnone us fun hus => hmem (h.mpr hus)]

/-! ### What a list of steps leaves -/

namespace SetsParts

variable {apply : S → T → S}

/-- Behind a step the earlier ones for its part do not show. -/
theorem apply_foldl_without (h : SetsParts apply part?) {t : T} (ht : part? t = some k)
    {steps : List T} (hsteps : ∀ u ∈ steps, (part? u).isSome) (s : S) :
    apply (steps.foldl apply s) t = apply ((without part? k steps).foldl apply s) t := by
  induction steps using List.reverseRecOn with
  | nil => rfl
  | append_singleton steps u ih =>
      have hinit := ih fun v hv => hsteps v (List.mem_append_left _ hv)
      obtain ⟨l, hl⟩ := Option.isSome_iff_exists.mp (hsteps u (by simp))
      rw [without_concat, hl]
      split
      · rename_i hkl
        rw [List.foldl_concat, h.absorb (hl.trans hkl) ht, hinit]
      · rename_i hkl
        have hne : l ≠ k := fun heq => hkl (congrArg some heq)
        rw [List.foldl_concat, List.foldl_concat, h.comm hl ht hne, hinit,
          h.comm ht hl hne.symm]

/-- The last step for a part may be taken last, and the earlier ones left out. -/
theorem foldl_of_lastOf (h : SetsParts apply part?) {t : T} {steps : List T}
    (hsteps : ∀ u ∈ steps, (part? u).isSome) (hlast : lastOf part? k steps = some t) (s : S) :
    steps.foldl apply s = apply ((without part? k steps).foldl apply s) t := by
  have ht : part? t = some k := by
    simpa using (List.mem_filter.mp (List.mem_of_getLast? hlast)).2
  induction steps using List.reverseRecOn with
  | nil => cases hlast
  | append_singleton steps u ih =>
      have hinit : ∀ v ∈ steps, (part? v).isSome := fun v hv =>
        hsteps v (List.mem_append_left _ hv)
      obtain ⟨l, hl⟩ := Option.isSome_iff_exists.mp (hsteps u (by simp))
      rw [lastOf_concat] at hlast
      rw [without_concat, List.foldl_concat]
      split
      · rename_i hu
        rw [if_pos hu] at hlast
        cases hlast
        exact h.apply_foldl_without hu hinit s
      · rename_i hu
        rw [if_neg hu] at hlast
        have hne : k ≠ l := fun heq => hu (by rw [hl, heq])
        rw [ih hinit hlast, List.foldl_concat, h.comm ht hl hne]

/-- **Only the last step for each part counts.**  Two lists of steps with the same last step for
each part leave the same. -/
theorem foldl_eq_of_lastOf (h : SetsParts apply part?) (ts us : List T)
    (hts : ∀ t ∈ ts, (part? t).isSome) (hus : ∀ u ∈ us, (part? u).isSome)
    (hlast : ∀ k, lastOf part? k ts = lastOf part? k us) (s : S) :
    ts.foldl apply s = us.foldl apply s := by
  -- By induction on the number of steps: the steps for one part at a time are taken care of.
  induction hn : ts.length using Nat.strongRecOn generalizing ts us s with
  | _ n ih =>
    cases hts' : ts.getLast? with
    | none =>
        have hnil := List.getLast?_eq_none_iff.mp hts'
        subst hnil
        cases us with
        | nil => rfl
        | cons u us =>
            obtain ⟨k, hk⟩ := Option.isSome_iff_exists.mp (hus u List.mem_cons_self)
            exact absurd hk (lastOf_eq_none_iff.mp (hlast k).symm u List.mem_cons_self)
    | some t =>
        obtain ⟨init, hinit⟩ := List.getLast?_eq_some_iff.mp hts'
        have hmem : t ∈ ts := List.mem_of_getLast? hts'
        obtain ⟨k, hk⟩ := Option.isSome_iff_exists.mp (hts t hmem)
        have hlast_ts : lastOf part? k ts = some t := by
          rw [hinit, lastOf_concat, if_pos hk]
        have hlast_us : lastOf part? k us = some t := by
          rw [← hlast k, hlast_ts]
        have hshorter : (without part? k ts).length < n := by
          rw [← hn]
          exact List.length_filter_lt_length_iff_exists.mpr ⟨t, hmem, by simp [hk]⟩
        rw [h.foldl_of_lastOf hts hlast_ts, h.foldl_of_lastOf hus hlast_us]
        congr 1
        refine ih _ hshorter (without part? k ts) (without part? k us) ?_ ?_ ?_ s rfl
        · exact fun u hu => hts u (List.mem_filter.mp hu).1
        · exact fun u hu => hus u (List.mem_filter.mp hu).1
        · intro l
          rw [lastOf_without, lastOf_without, hlast l]

/-- The same for the steps that set a part, among others. -/
theorem foldl_filter_eq_of_lastOf (h : SetsParts apply part?) {ts us : List T}
    (hlast : ∀ k, lastOf part? k ts = lastOf part? k us) (s : S) :
    (ts.filter fun t => (part? t).isSome).foldl apply s =
      (us.filter fun u => (part? u).isSome).foldl apply s := by
  have hfilter (k : K) (steps : List T) :
      lastOf part? k (steps.filter fun t => (part? t).isSome) = lastOf part? k steps := by
    unfold lastOf
    rw [List.filter_filter]
    congr 2
    funext t
    cases part? t <;> simp
  refine h.foldl_eq_of_lastOf _ _ ?_ ?_ (fun k => by rw [hfilter, hfilter, hlast k]) s
  · exact fun t ht => (List.mem_filter.mp ht).2
  · exact fun u hu => (List.mem_filter.mp hu).2

end SetsParts

end

end SeriesQuery
