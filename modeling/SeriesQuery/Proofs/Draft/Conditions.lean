/-
Conditions of drafts.

SELECT and DELETE both take a list of conditions, each with the conjunction that joins it to
those before.  Going through the list one condition at a time, the first starts the WHERE clause
over and each later one joins it, so the clause is the conditions with the conjunctions of all
but the first between them.  Building the clause and composing it is all that either statement
does with its conditions; where nothing else can fail, both fail alike and both end in the same
text.
-/
import SeriesQuery.Draft.Statement
import SeriesQuery.Proofs.Fragment.Names
import SeriesQuery.Proofs.WhereClause.Section

namespace SeriesQuery

/-! ### Joined conditions -/

namespace WhereClause

/-- The clause of conditions, each with the conjunction that joins it to those before. -/
def ofJoined : List (Conjunction × Condition) → WhereClause
  | [] => none
  | (_, first) :: rest => chain first rest

/-- A WHERE section: the first condition, and each later one behind its conjunction. -/
def joinedSection : List (Conjunction × String) → String
  | [] => ""
  | (_, first) :: rest =>
    " WHERE " ++ first ++ String.join (rest.map fun (k, t) => " " ++ k.keyword ++ " " ++ t)

/-- The texts of later conditions, each behind its conjunction. -/
def furtherTexts (ts : List (Conjunction × String)) : List String :=
  ts.flatMap fun (k, t) => [k.keyword, t]

theorem whereSection_furtherTexts (k : Conjunction) (first : String)
    (rest : List (Conjunction × String)) :
    whereSection (first :: furtherTexts rest) = joinedSection ((k, first) :: rest) := by
  apply String.toList_inj.mp
  unfold whereSection joinedSection furtherTexts
  rw [if_neg (by simp), String.toList_append, toList_intercalate_cons]
  simp [List.flatMap_assoc, List.flatMap_map]

theorem mapM_furtherTerms (rest : List (Conjunction × Condition)) :
    (rest.flatMap fun (k, c) => [.conjunction k, .condition c]).mapM Term.compile =
      furtherTexts <$> rest.mapM fun j => (j.1, ·) <$> j.2.compile := by
  induction rest with
  | nil => rfl
  | cons j rest ih =>
      obtain ⟨k, c⟩ := j
      have hpair : [Term.conjunction k, .condition c].mapM Term.compile =
          (fun t => [k.keyword, t]) <$> c.compile := by
        show (do
          let t ← c.compile
          return [k.keyword, t]) = _
        rw [map_eq_pure_bind]
      rw [List.flatMap_cons, List.mapM_append, hpair, ih, List.mapM_cons]
      simp only [map_eq_pure_bind, bind_assoc, pure_bind]
      rfl

/-- The clause composes to the section of its conditions. -/
theorem compile_ofJoined (js : List (Conjunction × Condition)) :
    whereSection <$> (ofJoined js).compile =
      joinedSection <$> js.mapM fun j => (j.1, ·) <$> j.2.compile := by
  cases js with
  | nil => rfl
  | cons j rest =>
      obtain ⟨k, first⟩ := j
      unfold compile
      show whereSection <$> (.condition first :: rest.flatMap fun (k, c) =>
        [.conjunction k, .condition c]).mapM Term.compile = _
      rw [List.mapM_cons, List.mapM_cons, mapM_furtherTerms]
      simp only [map_eq_pure_bind, bind_assoc, pure_bind, whereSection_furtherTexts k]
      rfl

end WhereClause

/-! ### Building the clause -/

namespace ConditionDraft

/-- The condition with its conjunction, as it joins others. -/
def joined (c : ConditionDraft) : Composed (Conjunction × Condition) :=
  (c.join, ·) <$> c.condition

/-- The condition as it stands in a statement. -/
def text (c : ConditionDraft) : Composed String :=
  c.condition >>= Condition.compile

theorem clause_eq (drafts : List ConditionDraft) :
    clause drafts = WhereClause.ofJoined <$> drafts.mapM joined := by
  have hjoined : (fun c : ConditionDraft => do return (c.join, ← c.condition)) = joined := by
    funext c
    exact (map_eq_pure_bind _ _).symm
  unfold clause
  rw [hjoined, map_eq_pure_bind]
  refine bind_congr fun js => ?_
  cases js <;> rfl

/-- The call that a condition in a place of a list makes: in the first place it starts the clause
    over, and in any other it joins those before. -/
def call (c : ConditionDraft) (place : Nat) : Composed WhereClause.Call :=
  (fun condition => if place = 0 then .only condition else .join c.join condition) <$> c.condition

/-- The calls that the conditions of a list make, one after the other. -/
def calls (drafts : List ConditionDraft) : List (Composed WhereClause.Call) :=
  drafts.zipIdx.map fun x => x.1.call x.2

theorem call_of_ne_zero (c : ConditionDraft) {place : Nat} (h : place ≠ 0) :
    c.call place = (fun j => .join j.1 j.2) <$> c.joined := by
  unfold call joined
  simp only [if_neg h, Functor.map_map]

/-- Behind the first condition each call adds one at the end of the clause. -/
theorem takeSteps_chain (first : Condition) (drafts : List ConditionDraft) :
    ∀ {place : Nat} (before : List (Conjunction × Condition)), place ≠ 0 →
      Composed.takeSteps WhereClause.apply (.chain first before)
          ((drafts.zipIdx place).map fun x => x.1.call x.2) =
        (fun js => .chain first (before ++ js)) <$> drafts.mapM joined := by
  induction drafts with
  | nil =>
      intro place before _
      show Except.ok _ = Except.ok (WhereClause.chain first (before ++ []))
      rw [List.append_nil]
  | cons c drafts ih =>
      intro place before h
      rw [List.zipIdx_cons, List.map_cons, Composed.takeSteps_cons, call_of_ne_zero c h,
        List.mapM_cons]
      simp only [map_eq_pure_bind, bind_assoc, pure_bind]
      refine bind_congr fun j => ?_
      show Composed.takeSteps WhereClause.apply (.chain first (before ++ [(j.1, j.2)])) _ = _
      rw [ih _ (Nat.succ_ne_zero place), map_eq_pure_bind]
      simp only [List.append_assoc, List.singleton_append]

/-- **Taking the conditions one at a time leaves the clause, or the failure.** -/
theorem clause_eq_takeSteps (drafts : List ConditionDraft) :
    clause drafts = Composed.takeSteps WhereClause.apply .none (calls drafts) := by
  rw [clause_eq]
  cases drafts with
  | nil => rfl
  | cons c drafts =>
      unfold calls call joined
      rw [List.mapM_cons, List.zipIdx_cons, List.map_cons, Composed.takeSteps_cons]
      simp only [map_eq_pure_bind, bind_assoc, pure_bind]
      refine bind_congr fun first => ?_
      have hrest := takeSteps_chain first drafts [] (Nat.succ_ne_zero 0)
      rw [map_eq_pure_bind] at hrest
      exact hrest.symm

/-- The conjunction of the first condition joins it to nothing. -/
theorem clause_join (k : Conjunction) (first : ConditionDraft) (rest : List ConditionDraft) :
    clause ({ first with join := k } :: rest) = clause (first :: rest) := by
  rw [clause_eq, clause_eq, List.mapM_cons, List.mapM_cons]
  unfold joined
  simp only [map_eq_pure_bind, bind_assoc, pure_bind]
  rfl

/-- The WHERE section that conditions make up, or the first failure among them. -/
def sectionOf (drafts : List ConditionDraft) : Composed String := do
  let cs ← clause drafts
  whereSection <$> cs.compile

/-- The section has the conditions as they stand in a statement, each with its conjunction. -/
theorem exists_texts_of_sectionOf {drafts : List ConditionDraft} {w : String}
    (h : sectionOf drafts = .ok w) : ∃ ts : List (Conjunction × String),
      List.Forall₂ (fun c t => t.1 = c.join ∧ c.text = .ok t.2) drafts ts ∧
        w = WhereClause.joinedSection ts := by
  obtain ⟨cs, hclause, hw⟩ := Composed.bind_eq_ok_iff.mp h
  rw [clause_eq] at hclause
  obtain ⟨js, hjs, rfl⟩ := Composed.map_eq_ok_iff.mp hclause
  rw [WhereClause.compile_ofJoined] at hw
  obtain ⟨ts, hts, rfl⟩ := Composed.map_eq_ok_iff.mp hw
  refine ⟨ts, ?_, rfl⟩
  have hbuilt := Composed.mapM_eq_ok_iff.mp hjs
  have hcomposed := Composed.mapM_eq_ok_iff.mp hts
  clear hclause hw hjs hts h
  induction hbuilt generalizing ts with
  | nil =>
      cases hcomposed
      exact .nil
  | cons hj _ ih =>
      cases hcomposed with
      | cons ht hcomposed =>
          obtain ⟨c, hc, rfl⟩ := Composed.map_eq_ok_iff.mp hj
          obtain ⟨t, htext, rfl⟩ := Composed.map_eq_ok_iff.mp ht
          exact .cons ⟨rfl, Composed.bind_eq_ok_iff.mpr ⟨c, hc, htext⟩⟩ (ih _ hcomposed)

end ConditionDraft

/-! ### SELECT and DELETE -/

/-- The SELECT of everything from a measurement under conditions. -/
def SelectDraft.everything (measurement : String) (conditions : List ConditionDraft) :
    SelectDraft where
  fields := []
  measurement := some measurement
  retentionPolicy := none
  conditions := conditions
  groupBy := []
  orderBy := []
  limit := none
  offset := none
  seriesLimit := none
  seriesOffset := none
  fill := none

/-- The SELECT of everything from a measurement. -/
def Select.everything (m : String) (cs : WhereClause) : Select Fragment :=
  { ofFields [] with measurement := some (.name m), conditions := cs }

theorem Select.text_everything (policy : Option String) (m : String) (ts : List String) :
    Clauses.text ⟨[], m, policy, ts, [], [], none, none, none, none, none⟩ =
      "SELECT * FROM " ++ qualifiedName policy m ++ whereSection ts := by
  have hselecting : Phrases.text ["SELECT", "*"] ++ " FROM " = "SELECT * FROM " := by decide
  rw [Clauses.text_eq, ← hselecting]
  show Phrases.text ["SELECT", "*"] ++ (" FROM " ++ qualifiedName policy m) ++
    whereSection ts ++ "" = _
  simp only [String.append_empty, String.append_assoc]

theorem Select.compile_everything (policy : Option String) (m : String) (cs : WhereClause) :
    (Statement.select { everything m cs with
        retentionPolicy := policy.map Fragment.name }).compile =
      (fun w => "SELECT * FROM " ++
        qualifiedName (policy.map Identifier.text) (Identifier.text m) ++ w) <$>
          whereSection <$> cs.compile := by
  have hclauses : clauses { everything m cs with retentionPolicy := policy.map Fragment.name } =
      (fun ts => ⟨[], Identifier.text m, policy.map Identifier.text, ts, [], [], none, none, none,
        none, none⟩) <$> cs.compile := by
    rw [map_eq_pure_bind]
    cases policy <;> rfl
  rw [compile_eq_clauses, hclauses, Functor.map_map, Functor.map_map]
  exact congrArg (· <$> cs.compile)
    (funext (text_everything (policy.map Identifier.text) (Identifier.text m)))

theorem Delete.text_name (m : String) (ts : List String) :
    Clauses.text ⟨Identifier.text m, ts⟩ =
      "DELETE FROM " ++ Identifier.text m ++ whereSection ts := by
  have hdeleting : Phrases.text ("DELETE FROM" :: Phrases.bare (Identifier.text m)) =
      "DELETE FROM " ++ Identifier.text m := by
    apply String.toList_inj.mp
    rw [Phrases.toList_text_cons, Phrases.spaced_bare (Identifier.text_ne_empty m)]
    simp
  rw [Clauses.text_eq, Clauses.deleting, hdeleting]

theorem Delete.compile_name (m : String) (cs : WhereClause) :
    (Statement.delete ⟨some (.name m), cs⟩).compile =
      (fun w => "DELETE FROM " ++ Identifier.text m ++ w) <$> whereSection <$> cs.compile := by
  have hclauses : clauses ⟨some (.name m), cs⟩ =
      (fun ts => ⟨Identifier.text m, ts⟩) <$> cs.compile := by
    rw [map_eq_pure_bind]
    rfl
  rw [compile_eq_clauses, hclauses, Functor.map_map, Functor.map_map]
  exact congrArg (· <$> cs.compile) (funext (text_name m))

namespace StatementDraft

theorem compile_everything_qualified (measurement : String) (conditions : List ConditionDraft)
    (settings : Settings) :
    (select (.everything measurement conditions)).compile settings =
      (fun w => "SELECT * FROM " ++ qualifiedName (settings.retentionPolicy.map Identifier.text)
        (Identifier.text measurement) ++ w) <$> ConditionDraft.sectionOf conditions := by
  have hbuild : (select (.everything measurement conditions)).build settings =
      (fun cs => Statement.select { Select.everything measurement cs with
        retentionPolicy := settings.retentionPolicy.map Fragment.name }) <$>
          ConditionDraft.clause conditions := by
    show Except.map Statement.select (SelectDraft.build _ settings) = _
    unfold SelectDraft.build SelectDraft.everything
    dsimp only
    cases ConditionDraft.clause conditions <;> rfl
  unfold compile ConditionDraft.sectionOf
  rw [hbuild]
  simp only [map_eq_pure_bind, bind_assoc, pure_bind, Select.compile_everything]

theorem compile_everything (measurement : String) (conditions : List ConditionDraft)
    {settings : Settings} (hs : settings.retentionPolicy = none) :
    (select (.everything measurement conditions)).compile settings =
      (fun w => "SELECT * FROM " ++ Identifier.text measurement ++ w) <$>
        ConditionDraft.sectionOf conditions := by
  rw [compile_everything_qualified, hs]
  rfl

theorem compile_delete (measurement : String) (conditions : List ConditionDraft)
    (settings : Settings) :
    (delete ⟨some measurement, conditions⟩).compile settings =
      (fun w => "DELETE FROM " ++ Identifier.text measurement ++ w) <$>
        ConditionDraft.sectionOf conditions := by
  have hbuild : (delete ⟨some measurement, conditions⟩).build settings =
      (fun cs => Statement.delete ⟨some (.name measurement), cs⟩) <$>
        ConditionDraft.clause conditions := by
    show Except.map Statement.delete (DeleteDraft.build _) = _
    unfold DeleteDraft.build
    cases ConditionDraft.clause conditions <;> rfl
  unfold compile ConditionDraft.sectionOf
  rw [hbuild]
  simp only [map_eq_pure_bind, bind_assoc, pure_bind, Delete.compile_name]

/--
**SELECT and DELETE treat conditions alike.**  Under settings without a retention policy, the
SELECT of everything from a measurement and the DELETE from it, under the same conditions, fail
with the same error, or both compose and end in the same measurement and the same WHERE section:
the first condition, and each later one behind its conjunction.  What joins the first condition
changes neither.
-/
theorem select_and_delete_alike (measurement : String) (conditions : List ConditionDraft)
    {settings : Settings} (hs : settings.retentionPolicy = none) :
    ((∃ e, (select (.everything measurement conditions)).compile settings = .error e ∧
        (delete ⟨some measurement, conditions⟩).compile settings = .error e) ∨
      ∃ ts : List (Conjunction × String),
        List.Forall₂ (fun c t => t.1 = c.join ∧ c.text = .ok t.2) conditions ts ∧
        (select (.everything measurement conditions)).compile settings =
          .ok ("SELECT * FROM " ++ Identifier.text measurement ++ WhereClause.joinedSection ts) ∧
        (delete ⟨some measurement, conditions⟩).compile settings =
          .ok ("DELETE FROM " ++ Identifier.text measurement ++ WhereClause.joinedSection ts)) ∧
    ∀ first rest k, conditions = first :: rest →
      (select (.everything measurement ({ first with join := k } :: rest))).compile settings =
        (select (.everything measurement conditions)).compile settings ∧
      (delete ⟨some measurement, { first with join := k } :: rest⟩).compile settings =
        (delete ⟨some measurement, conditions⟩).compile settings := by
  have hselect cs := compile_everything measurement cs hs
  have hdelete cs := compile_delete measurement cs settings
  constructor
  · rw [hselect, hdelete]
    cases hsection : ConditionDraft.sectionOf conditions with
    | error e => exact Or.inl ⟨e, rfl, rfl⟩
    | ok w =>
        obtain ⟨ts, hts, rfl⟩ := ConditionDraft.exists_texts_of_sectionOf hsection
        exact Or.inr ⟨ts, hts, rfl, rfl⟩
  · rintro first rest k rfl
    have hsection : ConditionDraft.sectionOf ({ first with join := k } :: rest) =
        ConditionDraft.sectionOf (first :: rest) := by
      unfold ConditionDraft.sectionOf
      rw [ConditionDraft.clause_join]
    constructor
    · rw [hselect, hselect, hsection]
    · rw [hdelete, hdelete, hsection]

/-- Three conditions, the second joined by OR and the third by AND; that the first would be joined
    by OR does not show. -/
theorem alike_under_three_conditions :
    let first : ConditionDraft := ⟨"value > ?", [.int 1], .or⟩
    let second : ConditionDraft := ⟨"host", [.text "a"], .or⟩
    let third : ConditionDraft := ⟨"x < y", [], .and⟩
    (select (.everything "cpu" [first, second, third])).compile Settings.empty =
        .ok "SELECT * FROM \"cpu\" WHERE value > 1 OR \"host\" = 'a' AND x < y" ∧
      (delete ⟨some "cpu", [first, second, third]⟩).compile Settings.empty =
        .ok "DELETE FROM \"cpu\" WHERE value > 1 OR \"host\" = 'a' AND x < y" ∧
      (delete ⟨some "cpu", [{ first with join := .and }, second, third]⟩).compile Settings.empty =
        .ok "DELETE FROM \"cpu\" WHERE value > 1 OR \"host\" = 'a' AND x < y" := by
  intro first second third
  have hfirst : first.text = .ok "value > 1" := by decide
  have hsecond : second.text = .ok "\"host\" = 'a'" := by decide
  have hthird : third.text = .ok "x < y" := by decide
  have hcomposes : ((select (.everything "cpu" [first, second, third])).compile
      Settings.empty).isOk = true := by decide
  obtain ⟨hboth, hjoin⟩ := select_and_delete_alike "cpu" [first, second, third]
    (rfl : Settings.empty.retentionPolicy = none)
  rw [(hjoin first [second, third] .and rfl).2]
  rcases hboth with ⟨e, he, -⟩ | ⟨ts, hts, hselect, hdelete⟩
  · rw [he] at hcomposes
    cases hcomposes
  · have hshape : ts = [(.or, "value > 1"), (.or, "\"host\" = 'a'"), (.and, "x < y")] := by
      obtain ⟨t, rest, ⟨hjoin₁, htext₁⟩, hrest, rfl⟩ := List.forall₂_cons_left_iff.mp hts
      obtain ⟨u, last, ⟨hjoin₂, htext₂⟩, hlast, rfl⟩ := List.forall₂_cons_left_iff.mp hrest
      obtain ⟨v, none, ⟨hjoin₃, htext₃⟩, hnone, rfl⟩ := List.forall₂_cons_left_iff.mp hlast
      obtain rfl := List.forall₂_nil_left_iff.mp hnone
      rw [hfirst, Except.ok.injEq] at htext₁
      rw [hsecond, Except.ok.injEq] at htext₂
      rw [hthird, Except.ok.injEq] at htext₃
      rw [← Prod.eta t, hjoin₁, ← htext₁, ← Prod.eta u, hjoin₂, ← htext₂, ← Prod.eta v, hjoin₃,
        ← htext₃]
    rw [hselect, hdelete, hshape]
    decide

end StatementDraft

end SeriesQuery
