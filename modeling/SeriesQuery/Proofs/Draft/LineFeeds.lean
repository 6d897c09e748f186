/-
Line feeds of drafts.

What a file gives reaches a statement in two ways.  Names, function names, aliases, conditions and
the texts of values are written as they are, but for quotes, backslashes and the case of function
names, and no letter becomes a line feed when it is capitalised.  Numbers, durations, timestamps
and fill options are read, and what is written for them has no line feed, whatever the file has.
So the line feeds of a statement are those of the texts of the first kind, the database and the
retention policy of the settings among them where the draft leaves them open.
-/
import SeriesQuery.Draft.Batch
import SeriesQuery.Proofs.Draft.Conditions
import SeriesQuery.Proofs.Fragment.LineFeeds

namespace SeriesQuery

open Composed Text

/-! ### Capitals -/

theorem ofNat_ne_lineFeed {n : Nat} (h : 10 < n) : Char.ofNat n ≠ '\n' := by
  intro heq
  by_cases hvalid : n.isValidChar
  · have hchar : Char.ofNat n = Char.ofNatAux n hvalid := dif_pos hvalid
    have hcode : n = 10 := congrArg Char.toNat (hchar.symm.trans heq)
    omega
  · have hnull : Char.ofNat n = '\x00' := dif_neg hvalid
    rw [hnull] at heq
    exact absurd heq (by decide)

/-- Decided over the table. -/
theorem lineFeed_of_expandingCapitals {n : Nat} {capitals : List Nat}
    (h : expandingCapitals.lookup n = some capitals) : 10 < n ∧ ∀ k ∈ capitals, 10 < k := by
  have hall : ∀ entry ∈ expandingCapitals, 10 < entry.1 ∧ ∀ k ∈ entry.2, 10 < k := by
    decide +kernel
  obtain ⟨before, after, htable, -⟩ := List.lookup_eq_some_iff.mp h
  exact hall (n, capitals) (by rw [htable]; simp)

/-- Decided over the table. -/
theorem lineFeed_of_caseRuns {n : Nat} {r : CaseRun}
    (h : caseRuns.find? (·.has n) = some r) : 10 < n ∧ 10 < (n + r.distance).toNat := by
  have hall : ∀ r ∈ caseRuns, 10 < r.first ∧ 10 < r.first + r.distance := by decide +kernel
  obtain ⟨hfirst, hcapital⟩ := hall r (List.mem_of_find?_eq_some h)
  have hhas := List.find?_some h
  unfold CaseRun.has at hhas
  simp only [Bool.and_eq_true, decide_eq_true_eq] at hhas
  omega

/-- A character in capitals is a line feed only if it was one. -/
theorem count_upperChar (c : Char) : (upperChar c).count '\n' = [c].count '\n' := by
  have hother (h : 10 < c.toNat) : [c].count '\n' = 0 := by
    refine List.count_eq_zero.mpr fun hmem => ?_
    rw [← List.mem_singleton.mp hmem] at h
    exact absurd h (by decide)
  unfold upperChar
  split
  · rename_i capitals hlookup
    obtain ⟨hc, hcapitals⟩ := lineFeed_of_expandingCapitals hlookup
    rw [hother hc]
    refine List.count_eq_zero.mpr fun hmem => ?_
    obtain ⟨k, hk, heq⟩ := List.mem_map.mp hmem
    exact ofNat_ne_lineFeed (hcapitals k hk) heq
  · split
    · rename_i r hfind
      obtain ⟨hc, hcapital⟩ := lineFeed_of_caseRuns hfind
      rw [hother hc]
      refine List.count_eq_zero.mpr fun hmem => ?_
      exact ofNat_ne_lineFeed hcapital (List.mem_singleton.mp hmem).symm
    · rfl

theorem lineFeeds_upperCase (s : String) : lineFeeds (upperCase s) = lineFeeds s := by
  unfold upperCase lineFeeds
  rw [String.toList_ofList]
  induction s.toList with
  | nil => rfl
  | cons c cs ih =>
      rw [List.flatMap_cons, List.count_append, count_upperChar, ih, ← List.count_append,
        List.singleton_append]

/-! ### Numbers -/

theorem Decimal.mem_positional {d : Decimal} {c : Char} (h : c ∈ d.positional.toList) :
    c.isDigit = true ∨ c = '.' := by
  have hdigits (hc : c ∈ (toString d.digits).toList) : c.isDigit = true :=
    isDigit_of_mem_toString hc
  have hzeros (n : Nat) (hc : c ∈ List.replicate n '0') : c.isDigit = true := by
    rw [List.eq_of_mem_replicate hc]
    rfl
  unfold positional at h
  dsimp only at h
  split at h
  · rw [String.toList_ofList] at h
    rcases List.mem_append.mp h with hc | hc
    · exact Or.inl (hdigits hc)
    · exact Or.inl (hzeros _ hc)
  · have hpadded {places : Nat} (hc : c ∈ List.replicate places '0' ++ (toString d.digits).toList) :
        c.isDigit = true := by
      rcases List.mem_append.mp hc with hc | hc
      · exact hzeros _ hc
      · exact hdigits hc
    rw [String.toList_ofList, List.mem_append, List.mem_cons] at h
    rcases h with hc | hc | hc
    · exact Or.inl (hpadded (List.mem_of_mem_take hc))
    · exact Or.inr hc
    · exact Or.inl (hpadded (List.mem_of_mem_drop hc))

theorem lineFeeds_floating (f : Format) (x : Floating) : lineFeeds (x.text f) = 0 := by
  have hpositional (d : Decimal) : lineFeeds d.positional = 0 := by
    refine lineFeeds_eq_zero_iff.mpr fun hmem => ?_
    rcases Decimal.mem_positional hmem with hdigit | hpoint
    · cases hdigit
    · cases hpoint
  cases x with
  | nan =>
      show lineFeeds "NaN" = 0
      rfl
  | infinite negative =>
      show lineFeeds (if negative then "-inf" else "inf") = 0
      cases negative <;> rfl
  | finite negative x =>
      have hdigits : lineFeeds (if x.mantissa = 0 then "0" else (x.shortest f).positional) = 0 := by
        split
        · rfl
        · exact hpositional _
      have hminus : lineFeeds "-" = 0 := rfl
      show lineFeeds (if negative then "-" ++ _ else _) = 0
      split
      · rw [lineFeeds_append, hdigits, hminus]
      · exact hdigits

/-! ### Names -/

theorem shown_name (s : String) : (Fragment.name s).shown = [s] := by
  unfold Fragment.shown
  rfl

theorem shownOption_name (a : Option String) :
    Fragment.shownOption (a.map Fragment.name) = a.toList := by
  cases a with
  | none => rfl
  | some a => exact shown_name a

/-! ### Terms -/

/-- The line feeds of what a fragment is written with. -/
def Fragment.feeds (f : Fragment) : Nat :=
  totalFeeds f.shown

/-- The line feeds of what fragments are written with. -/
def Fragment.feedsAll (fs : List Fragment) : Nat :=
  totalFeeds (Fragment.shownAll fs)

/-- A call of `time` has no line feeds in its name, and its arguments are tokens. -/
theorem Fragment.feeds_time (d : Duration) : (Call.time d).fragment.feeds = 0 := by
  unfold feeds Call.fragment Call.time shown shownAll shownAll shown shownOption
  simp only [List.append_nil, totalFeeds_cons, totalFeeds_nil, lineFeeds_token]
  rfl

theorem Fragment.feeds_timeWithOffset (d e : Duration) :
    (Call.timeWithOffset d e).fragment.feeds = 0 := by
  unfold feeds Call.fragment Call.timeWithOffset shown shownAll shownAll shownAll shown shownOption
  simp only [List.append_nil, List.singleton_append, totalFeeds_cons, totalFeeds_nil,
    lineFeeds_token]
  rfl

namespace TermDraft

mutual

/-- The texts that the term is written with, in order. -/
def shown : TermDraft → List String
  | name s | asc s | desc s => [s]
  | int _ | float _ | time _ _ => []
  | call function args aliasName => function :: (shownAll args ++ aliasName.toList)

/-- The texts that the terms are written with. -/
def shownAll : List TermDraft → List String
  | [] => []
  | t :: ts => t.shown ++ shownAll ts

end

mutual

theorem hasSize_fragment : ∀ t : TermDraft, HasSize Fragment.feeds t.fragment (totalFeeds t.shown)
  | name s => by
    unfold fragment shown
    refine HasSize.ok ?_
    unfold Fragment.feeds
    rw [shown_name]
  | int n => by
    unfold fragment shown
    refine HasSize.ok ?_
    unfold Fragment.feeds Fragment.shown
    exact (Value.int n).lineFeeds_plain
  | float x => by
    unfold fragment shown
    refine HasSize.ok ?_
    unfold Fragment.feeds Fragment.shown
    exact lineFeeds_floating .binary64 x
  | call function args aliasName => by
    unfold fragment shown
    refine (hasSize_fragments args).map fun fs hfs => ?_
    unfold Fragment.feeds Fragment.shown
    rw [totalFeeds_cons, totalFeeds_cons, totalFeeds_append, totalFeeds_append, lineFeeds_upperCase,
      shownOption_name]
    unfold Fragment.feedsAll at hfs
    rw [hfs]
  | time interval none => by
    unfold fragment shown
    exact HasSize.any.map fun d _ => Fragment.feeds_time d
  | time interval (some offset) => by
    unfold fragment shown
    exact HasSize.any.bind fun d _ => HasSize.any.map fun e _ => Fragment.feeds_timeWithOffset d e
  | asc field | desc field => by
    unfold fragment shown
    refine HasSize.ok ?_
    unfold Fragment.feeds Fragment.shown
    rw [shown_name]

theorem hasSize_fragments :
    ∀ ts : List TermDraft, HasSize Fragment.feedsAll (fragments ts) (totalFeeds (shownAll ts))
  | [] => by
    unfold fragments shownAll
    exact HasSize.ok rfl
  | t :: ts => by
    unfold fragments shownAll
    refine (hasSize_fragment t).bind fun f hf => (hasSize_fragments ts).map fun fs hfs => ?_
    unfold Fragment.feedsAll Fragment.shownAll
    rw [totalFeeds_append, totalFeeds_append, ← hf, ← hfs]
    rfl

end

end TermDraft

/-! ### Conditions -/

namespace ValueDraft

/-- The text that the value is written with, if it is one. -/
def shown : ValueDraft → List String
  | text s => [s]
  | int _ | uint _ | float _ | bool _ | duration _ | time _ | moment _ => []

theorem hasSize_value (v : ValueDraft) :
    HasSize (fun v : Value => totalFeeds v.shown) v.value (totalFeeds v.shown) := by
  cases v with
  | text s => exact HasSize.ok rfl
  | int n => exact HasSize.ok rfl
  | uint n => exact HasSize.ok rfl
  | float x => exact HasSize.ok (lineFeeds_floating .binary64 x)
  | bool b => exact HasSize.ok (by cases b <;> rfl)
  | time t => exact HasSize.ok rfl
  | duration token =>
      show HasSize _ ((Duration.parse token).map Value.duration) 0
      exact HasSize.any.except_map fun _ _ => rfl
  | moment m =>
      show HasSize _ m.value 0
      unfold Moment.value
      split
      · exact HasSize.ok rfl
      · exact HasSize.error _

end ValueDraft

namespace ConditionDraft

/-- Whether the condition is shorthand: values, and no place for them in the expression. -/
def IsShorthand (c : ConditionDraft) : Prop :=
  '?' ∉ c.expression.toList ∧ c.values ≠ []

instance (c : ConditionDraft) : Decidable c.IsShorthand :=
  inferInstanceAs (Decidable (_ ∧ (¬ _)))

/-- The texts that the condition is written with: its expression, unless it is shorthand, and
    those of its values. -/
def shown (c : ConditionDraft) : List String :=
  (if c.IsShorthand then [] else [c.expression]) ++ c.values.flatMap ValueDraft.shown

theorem hasSize_condition (c : ConditionDraft) :
    HasSize (fun c : Condition => totalFeeds c.shown) c.condition (totalFeeds c.shown) := by
  intro condition hcondition
  obtain ⟨values, hvalues, hcondition⟩ := bind_eq_ok_iff.mp hcondition
  cases hcondition
  have hsize : (values.map fun v => totalFeeds v.shown).sum =
      (c.values.map fun v => totalFeeds v.shown).sum :=
    HasSize.mapM ValueDraft.hasSize_value c.values values hvalues
  have hlength := (mapM_eq_ok_iff.mp hvalues).length_eq
  have hshort : Condition.IsShorthand ⟨c.expression, values⟩ ↔ c.IsShorthand := by
    refine and_congr List.count_eq_zero (not_congr ?_)
    rw [← List.length_eq_zero_iff, ← List.length_eq_zero_iff, hlength]
  show totalFeeds (Condition.shown ⟨c.expression, values⟩) = totalFeeds c.shown
  unfold Condition.shown shown
  rw [totalFeeds_append, totalFeeds_append, totalFeeds_flatMap, totalFeeds_flatMap, hsize]
  simp only [hshort]

/-- The texts that the conditions are written with, in order. -/
def shownAll (drafts : List ConditionDraft) : List String :=
  drafts.flatMap shown

theorem shown_ofJoined (js : List (Conjunction × Condition)) :
    (WhereClause.ofJoined js).shown = js.flatMap fun j => j.2.shown := by
  cases js with
  | nil => rfl
  | cons j rest =>
      show j.2.shown ++ (rest.flatMap fun j => [.conjunction j.1, .condition j.2]).flatMap
        WhereClause.Term.shown = _
      rw [List.flatMap_assoc, List.flatMap_cons]
      simp [WhereClause.Term.shown]

theorem hasSize_clause (drafts : List ConditionDraft) :
    HasSize (fun cs : WhereClause => totalFeeds cs.shown) (clause drafts)
      (totalFeeds (shownAll drafts)) := by
  have hjoined (c : ConditionDraft) :
      HasSize (fun j : Conjunction × Condition => totalFeeds j.2.shown) c.joined
        (totalFeeds c.shown) := by
    unfold joined
    rw [map_eq_pure_bind]
    exact c.hasSize_condition.map fun _ h => h
  unfold shownAll
  rw [clause_eq, map_eq_pure_bind, totalFeeds_flatMap]
  refine (HasSize.mapM hjoined drafts).map fun js hjs => ?_
  rw [shown_ofJoined, totalFeeds_flatMap]
  exact hjs

end ConditionDraft

/-! ### Statements -/

namespace SelectDraft

/-- The texts that the statement is written with; the retention policy may be the settings'. -/
def shown (s : SelectDraft) (settings : Settings) : List String :=
  TermDraft.shownAll s.fields ++
    ((s.retentionPolicy <|> settings.retentionPolicy).toList ++ (s.measurement.toList ++
      (ConditionDraft.shownAll s.conditions ++
        (TermDraft.shownAll s.groupBy ++ TermDraft.shownAll s.orderBy))))

theorem hasSize_build (s : SelectDraft) (settings : Settings) :
    HasSize (fun q => totalFeeds (Fragment.shownSelect q)) (s.build settings)
      (totalFeeds (s.shown settings)) := by
  unfold build shown
  refine (TermDraft.hasSize_fragments s.fields).bind fun _ hfields => ?_
  refine (ConditionDraft.hasSize_clause s.conditions).bind fun _ hconditions => ?_
  refine (TermDraft.hasSize_fragments s.groupBy).bind fun _ hgroupBy => ?_
  refine (TermDraft.hasSize_fragments s.orderBy).bind fun _ horderBy => ?_
  refine HasSize.any.map fun _ _ => ?_
  unfold Fragment.feedsAll at hfields hgroupBy horderBy
  unfold Fragment.shownSelect
  simp only [totalFeeds_append, shownOption_name, hfields, hconditions, hgroupBy, horderBy]

end SelectDraft

namespace DeleteDraft

/-- The texts that the statement is written with. -/
def shown (s : DeleteDraft) : List String :=
  s.measurement.toList ++ ConditionDraft.shownAll s.conditions

theorem hasSize_build (s : DeleteDraft) :
    HasSize (fun q => totalFeeds (Fragment.shownDelete q)) s.build (totalFeeds s.shown) := by
  unfold build shown
  refine (ConditionDraft.hasSize_clause s.conditions).map fun _ hconditions => ?_
  unfold Fragment.shownDelete
  rw [totalFeeds_append, totalFeeds_append, shownOption_name, hconditions]

end DeleteDraft

theorem Settings.hasSize_requireDatabase (settings : Settings) (named : Option String) :
    HasSize lineFeeds (settings.requireDatabase named)
      (totalFeeds (named <|> settings.database).toList) := by
  unfold requireDatabase
  split
  · rename_i database hdatabase
    rw [hdatabase]
    exact HasSize.ok rfl
  · exact HasSize.error _

namespace RetentionPolicyDraft

/-- The texts that the statement is written with; the database may be the settings'. -/
def shown (s : RetentionPolicyDraft) (settings : Settings) : List String :=
  s.name :: (s.database <|> settings.database).toList

theorem hasSize_build (s : RetentionPolicyDraft) (settings : Settings) (isAlter : Bool) :
    HasSize (fun p => totalFeeds (Fragment.shownRetentionPolicy p)) (s.build settings isAlter)
      (totalFeeds (s.shown settings)) := by
  unfold build shown
  refine (settings.hasSize_requireDatabase s.database).bind fun _ hdatabase => ?_
  refine HasSize.any.bind fun _ _ => HasSize.any.map fun _ _ => ?_
  unfold Fragment.shownRetentionPolicy
  rw [shown_name, shown_name, totalFeeds_append, totalFeeds_cons, totalFeeds_cons, totalFeeds_cons,
    hdatabase]
  rfl

end RetentionPolicyDraft

namespace KeysDraft

/-- The texts that the statement is written with; the database and the retention policy may be
    the settings'. -/
def shown (s : KeysDraft) (settings : Settings) : List String :=
  (s.database <|> settings.database).toList ++
    ((s.effectivePolicy settings).toList ++ s.measurement.toList)

theorem shownKeys_build (s : KeysDraft) (settings : Settings) :
    Fragment.shownKeys (s.build settings) = s.shown settings := by
  unfold build shown Fragment.shownKeys
  rw [shownOption_name, shownOption_name, shownOption_name]

end KeysDraft

namespace StatementDraft

/-- The texts that the statement is written with, in order, with what the draft leaves open taken
    from the settings. -/
def shown (settings : Settings) : StatementDraft → List String
  | select s => s.shown settings
  | delete s => s.shown
  | object _ name => [name]
  | retentionPolicy s _ => s.shown settings
  | dropRetentionPolicy name database => name :: (database <|> settings.database).toList
  | list _ database => (database <|> settings.database).toList
  | showDatabases => []
  | showKeys _ s => s.shown settings

theorem hasSize_build (settings : Settings) (d : StatementDraft) :
    HasSize (fun s => totalFeeds (Fragment.shownStatement s)) (d.build settings)
      (totalFeeds (d.shown settings)) := by
  cases d with
  | select s =>
      show HasSize _ ((s.build settings).map Statement.select) (totalFeeds (s.shown settings))
      exact (s.hasSize_build settings).except_map fun _ h => h
  | delete s =>
      show HasSize _ (s.build.map Statement.delete) (totalFeeds s.shown)
      exact s.hasSize_build.except_map fun _ h => h
  | object action name =>
      refine HasSize.ok ?_
      unfold Fragment.shownStatement
      rw [shown_name]
      rfl
  | retentionPolicy s isAlter =>
      show HasSize _ ((s.build settings isAlter).map _) (totalFeeds (s.shown settings))
      exact (s.hasSize_build settings isAlter).except_map fun _ h => h
  | dropRetentionPolicy name database =>
      unfold build shown
      refine (settings.hasSize_requireDatabase database).map fun d hd => ?_
      unfold Fragment.shownStatement
      rw [shown_name, shown_name, totalFeeds_append, totalFeeds_cons, totalFeeds_cons, hd]
      rfl
  | list what database =>
      refine HasSize.ok ?_
      unfold Fragment.shownStatement
      rw [shownOption_name]
      rfl
  | showDatabases => exact HasSize.ok rfl
  | showKeys kind s =>
      refine HasSize.ok ?_
      unfold Fragment.shownStatement
      rw [s.shownKeys_build]
      rfl

/-- A statement has the line feeds of the texts it is written with. -/
theorem hasSize_compile (settings : Settings) (d : StatementDraft) :
    HasSize lineFeeds (d.compile settings) (totalFeeds (d.shown settings)) := by
  unfold compile
  refine (d.hasSize_build settings).bind fun s hs => ?_
  rw [← hs]
  exact Fragment.hasSize_compileStatement s

end StatementDraft

/-- The texts that the statements of a batch are written with. -/
def Batch.shown (settings : Settings) (b : Batch) : List String :=
  b.statements.flatMap (StatementDraft.shown settings)

theorem Batch.hasSize_compile (settings : Settings) (b : Batch) :
    HasSize totalFeeds (b.compile settings) (totalFeeds (b.shown settings)) := by
  unfold shown
  rw [totalFeeds_flatMap]
  exact HasSize.mapM (StatementDraft.hasSize_compile settings) b.statements

end SeriesQuery
