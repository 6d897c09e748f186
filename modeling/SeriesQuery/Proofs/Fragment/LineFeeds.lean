/-
Line feeds of statements.

A fragment is written with texts that are given to it: names, function names, aliases, conditions
and the texts of values.  All the rest of a statement is keywords, numbers and marks, none of which
has a line feed in it, and every text that is given is written exactly once.  So a statement has
the line feeds of the texts it is written with.
-/
import SeriesQuery.Fragment
import SeriesQuery.Proofs.Composed
import SeriesQuery.Proofs.Condition.LineFeeds
import SeriesQuery.Proofs.Numeral

namespace SeriesQuery

open Text

/-! ### Phrases -/

namespace Phrases

theorem lineFeeds_text (ps : Phrases) : lineFeeds ps.text = totalFeeds ps :=
  lineFeeds_intercalate rfl ps

@[simp] theorem totalFeeds_bare (t : String) : totalFeeds (bare t) = lineFeeds t := by
  unfold bare
  split
  · rename_i hempty
    rw [String.isEmpty_iff.mp hempty]
    rfl
  · rw [totalFeeds_cons, totalFeeds_nil, Nat.add_zero]

theorem lineFeeds_keyword {keyword : String} (h : lineFeeds keyword = 0) (t : String) :
    lineFeeds (keyword ++ " " ++ t) = lineFeeds t := by
  have hspace : lineFeeds " " = 0 := rfl
  rw [lineFeeds_append, lineFeeds_append, h, hspace, Nat.zero_add]

theorem totalFeeds_clause {keyword : String} (h : lineFeeds keyword = 0) (t : Option String) :
    totalFeeds (clause keyword t) = totalFeeds t.toList := by
  cases t with
  | none => rfl
  | some t =>
      unfold clause
      rw [totalFeeds_cons, lineFeeds_keyword h, Option.toList_some, totalFeeds_cons]

theorem totalFeeds_numberClause {keyword : String} (h : lineFeeds keyword = 0) (n : Option Nat) :
    totalFeeds (numberClause keyword n) = 0 := by
  unfold numberClause
  rw [totalFeeds_clause h]
  cases n with
  | none => rfl
  | some n => exact lineFeeds_eq_zero_iff.mpr (not_mem_toString (by decide) n)

theorem totalFeeds_listClause {keyword separator : String} (h : lineFeeds keyword = 0)
    (hseparator : lineFeeds separator = 0) (items : List String) :
    totalFeeds (listClause keyword separator items) = totalFeeds items := by
  unfold listClause
  split
  · rename_i hempty
    rw [List.isEmpty_iff.mp hempty]
  · rw [totalFeeds_cons, lineFeeds_keyword h, lineFeeds_intercalate hseparator, totalFeeds_nil,
      Nat.add_zero]

end Phrases

open Phrases

theorem lineFeeds_qualifiedName (policy : Option String) (measurement : String) :
    lineFeeds (qualifiedName policy measurement) =
      totalFeeds policy.toList + lineFeeds measurement := by
  have hpoint : lineFeeds "." = 0 := rfl
  cases policy with
  | none => exact (Nat.zero_add _).symm
  | some policy => simp [qualifiedName, hpoint]

/-- A measurement that may be absent, then with no retention policy either. -/
theorem totalFeeds_source {policy measurement : Option String}
    (h : ∀ p, measurement = none → policy ≠ some p) :
    totalFeeds (measurement.map (qualifiedName policy)).toList =
      totalFeeds policy.toList + totalFeeds measurement.toList := by
  cases measurement with
  | some m => exact lineFeeds_qualifiedName policy m
  | none =>
      rw [Option.eq_none_iff_forall_ne_some.mpr fun p => h p rfl]
      rfl

/-! ### Statements from their parts -/

theorem lineFeeds_objectText {keywords : String} (h : lineFeeds keywords = 0) (name : String)
    (database : Option String) :
    lineFeeds (objectText keywords name database) =
      lineFeeds name + totalFeeds database.toList := by
  unfold objectText
  rw [lineFeeds_text, totalFeeds_cons, totalFeeds_append, totalFeeds_bare, totalFeeds_clause rfl, h,
    Nat.zero_add]

theorem lineFeeds_showText {what : String} (h : lineFeeds what = 0)
    (database source : Option String) :
    lineFeeds (showText what database source) =
      totalFeeds database.toList + totalFeeds source.toList := by
  have hkeyword : lineFeeds "SHOW" = 0 := rfl
  unfold showText
  rw [lineFeeds_text, totalFeeds_cons, totalFeeds_append, totalFeeds_append, totalFeeds_bare,
    totalFeeds_clause rfl, totalFeeds_clause rfl, h, hkeyword, Nat.zero_add, Nat.zero_add]

theorem Delete.lineFeeds_text (measurement : String) (conditions : List String) :
    lineFeeds (Delete.text measurement conditions) =
      lineFeeds measurement + totalFeeds conditions := by
  have hkeyword : lineFeeds "DELETE FROM" = 0 := rfl
  unfold Delete.text
  rw [Phrases.lineFeeds_text, totalFeeds_cons, totalFeeds_append, totalFeeds_bare,
    totalFeeds_listClause rfl rfl, hkeyword, Nat.zero_add]

theorem lineFeeds_token (d : Duration) : lineFeeds d.token = 0 :=
  (Value.duration d).lineFeeds_plain

theorem RetentionPolicy.lineFeeds_text (p : RetentionPolicy String) :
    lineFeeds p.text = lineFeeds p.name + lineFeeds p.database := by
  have hopening : lineFeeds (if p.isAlter then "ALTER" else "CREATE") = 0 := by
    cases p.isAlter <;> rfl
  have hdefault : totalFeeds (if p.isDefault then ["DEFAULT"] else []) = 0 := by
    cases p.isDefault <;> rfl
  have hreplication : lineFeeds (toString p.replication) = 0 :=
    lineFeeds_eq_zero_iff.mpr (not_mem_toString (by decide) _)
  have hshard : totalFeeds (p.shardDuration.map Duration.token).toList = 0 := by
    cases p.shardDuration with
    | none => rfl
    | some d => exact lineFeeds_token d
  unfold RetentionPolicy.text
  rw [Phrases.lineFeeds_text, totalFeeds_cons, hopening]
  simp (disch := decide) only [totalFeeds_append, totalFeeds_clause, Option.toList_some,
    totalFeeds_cons, totalFeeds_nil, lineFeeds_token, hreplication, hshard, hdefault]
  omega

namespace Select.Clauses

theorem lineFeeds_selection (c : Clauses) : lineFeeds c.selection = totalFeeds c.fields := by
  unfold selection
  split
  · rename_i hempty
    rw [List.isEmpty_iff.mp hempty]
    rfl
  · exact lineFeeds_intercalate rfl _

theorem totalFeeds_fill (f : Option String) :
    totalFeeds (f.toList.map fun f => "fill(" ++ f ++ ")") = totalFeeds f.toList := by
  have hopening : lineFeeds "fill(" = 0 := rfl
  have hclosing : lineFeeds ")" = 0 := rfl
  cases f with
  | none => rfl
  | some f => simp [hopening, hclosing]

/-- A SELECT has the line feeds of its parts. -/
theorem lineFeeds_text (c : Clauses) :
    lineFeeds c.text = totalFeeds c.fields + lineFeeds c.measurement +
      totalFeeds c.retentionPolicy.toList + totalFeeds c.conditions + totalFeeds c.groupBy +
      totalFeeds c.orderBy + totalFeeds c.fill.toList := by
  have hkeyword : lineFeeds "SELECT" = 0 := rfl
  unfold text phrases
  rw [Phrases.lineFeeds_text, totalFeeds_cons, hkeyword]
  simp (disch := decide) only [totalFeeds_append, totalFeeds_bare, totalFeeds_clause,
    totalFeeds_listClause, totalFeeds_numberClause, lineFeeds_selection, totalFeeds_fill,
    Option.toList_some, totalFeeds_cons, totalFeeds_nil, lineFeeds_qualifiedName]
  omega

end Select.Clauses

/-! ### The texts that a fragment is written with -/

/-- The texts that the term is written with. -/
def WhereClause.Term.shown : Term → List String
  | condition c => c.shown
  | conjunction _ => []

/-- The texts that the conditions are written with. -/
def WhereClause.shown (cs : WhereClause) : List String :=
  cs.terms.flatMap Term.shown

namespace Fragment

mutual

/-- The texts that the fragment is written with, in order. -/
def shown : Fragment → List String
  | name s | raw s | quoted s => [s]
  | window _ | conjunction _ => []
  | value v => v.shown
  | condition c => c.shown
  | call function args aliasName => function :: (shownAll args ++ shownOption aliasName)
  | ordered term _ => term.shown
  | statement s => shownStatement s

/-- The texts that the fragments are written with. -/
def shownAll : List Fragment → List String
  | [] => []
  | f :: fs => f.shown ++ shownAll fs

/-- The texts that a fragment is written with, which may be absent. -/
def shownOption : Option Fragment → List String
  | none => []
  | some f => f.shown

/-- The texts that the statement is written with. -/
def shownStatement : Statement Fragment → List String
  | .select s => shownSelect s
  | .delete s => shownDelete s
  | .object _ object => object.shown
  | .retentionPolicy p => shownRetentionPolicy p
  | .dropRetentionPolicy policy database => policy.shown ++ database.shown
  | .list _ database => shownOption database
  | .showDatabases => []
  | .showKeys _ source => shownKeys source

def shownSelect : Select Fragment → List String
  | ⟨fields, measurement, retentionPolicy, conditions, groupBy, orderBy, _, _, _, _, _⟩ =>
    shownAll fields ++ (shownOption retentionPolicy ++ (shownOption measurement ++
      (conditions.shown ++ (shownAll groupBy ++ shownAll orderBy))))

def shownDelete : Delete Fragment → List String
  | ⟨measurement, conditions⟩ => shownOption measurement ++ conditions.shown

def shownRetentionPolicy : RetentionPolicy Fragment → List String
  | ⟨policy, database, _, _, _, _, _⟩ => policy.shown ++ database.shown

def shownKeys : KeysScope Fragment → List String
  | ⟨database, measurement, retentionPolicy⟩ =>
    shownOption database ++ (shownOption retentionPolicy ++ shownOption measurement)

end

end Fragment

/-! ### What is composed has their line feeds -/

namespace Composed

variable {α β : Type} {size : α → Nat} {size' : β → Nat} {x : Composed α} {m n : Nat}

/-- What is composed, if anything is, has the size. -/
def HasSize (size : α → Nat) (x : Composed α) (n : Nat) : Prop :=
  ∀ a, x = .ok a → size a = n

namespace HasSize

theorem ok {a : α} (h : size a = n) : HasSize size (.ok a) n := by
  rintro a ⟨⟩
  exact h

theorem error (e : ComposeError) : HasSize size (.error e) n :=
  nofun

/-- Anything has the size zero where nothing of it is counted. -/
theorem any : HasSize (fun _ => 0) x 0 :=
  fun _ _ => rfl

/-- Of what came before only the size counts. -/
theorem bind {k : α → Composed β} (hx : HasSize size x m)
    (hk : ∀ a, size a = m → HasSize size' (k a) n) : HasSize size' (x >>= k) n := by
  intro b hb
  obtain ⟨a, ha, hb⟩ := bind_eq_ok_iff.mp hb
  exact hk a (hx a ha) b hb

theorem map {f : α → β} (hx : HasSize size x m) (hf : ∀ a, size a = m → size' (f a) = n) :
    HasSize size' (x >>= fun a => pure (f a)) n :=
  hx.bind fun a ha => ok (hf a ha)

theorem except_map {f : α → β} (hx : HasSize size x m) (hf : ∀ a, size a = m → size' (f a) = n) :
    HasSize size' (x.map f) n :=
  hx.map hf

theorem mapM {f : α → Composed β} {sizes : α → Nat} (h : ∀ a, HasSize size' (f a) (sizes a))
    (as : List α) :
    HasSize (fun bs : List β => (bs.map size').sum) (as.mapM f) (as.map sizes).sum := by
  induction as with
  | nil => exact ok rfl
  | cons a as ih =>
      rw [List.mapM_cons, List.map_cons, List.sum_cons]
      refine (h a).bind fun _ hb => ih.map fun _ hbs => ?_
      rw [List.map_cons, List.sum_cons, hb, hbs]

end HasSize
end Composed

open Composed

/-- The line feeds of a text that may be absent. -/
def optionFeeds (t : Option String) : Nat :=
  totalFeeds t.toList

/-- A number to fill with is a numeral, and the other options are keywords. -/
theorem Fill.hasSize_compile (f : Fill) : HasSize lineFeeds f.compile 0 := by
  cases f with
  | number text =>
      show HasSize lineFeeds (if Numeral.isFiniteText text.toList then _ else _) 0
      split
      · rename_i hfinite
        refine HasSize.ok (lineFeeds_eq_zero_iff.mpr fun hmem => ?_)
        rcases Numeral.isMark_of_mem hfinite _ hmem with hdigit | hmark
        · cases hdigit
        · exact absurd hmark (by decide)
      · exact HasSize.error _
  | _ => exact HasSize.ok rfl

theorem Fill.hasSize_option (f : Option Fill) : HasSize optionFeeds (f.mapM Fill.compile) 0 := by
  cases f with
  | none => exact HasSize.ok rfl
  | some f => exact f.hasSize_compile.map fun _ h => h

theorem WhereClause.Term.hasSize_compile (t : Term) :
    HasSize lineFeeds t.compile (totalFeeds t.shown) := by
  cases t with
  | condition c => exact fun _ => Condition.lineFeeds_of_compile
  | conjunction k => exact HasSize.ok (by cases k <;> rfl)

theorem WhereClause.hasSize_compile (cs : WhereClause) :
    HasSize totalFeeds cs.compile (totalFeeds cs.shown) := by
  unfold shown
  rw [totalFeeds_flatMap]
  exact HasSize.mapM Term.hasSize_compile cs.terms

namespace Fragment

theorem lineFeeds_callText (function : String) (args : List String) (aliasName : Option String) :
    lineFeeds (callText function args aliasName) =
      lineFeeds function + (totalFeeds args + optionFeeds aliasName) := by
  have hopening : lineFeeds "(" = 0 := rfl
  have hclosing : lineFeeds ")" = 0 := rfl
  have hkeyword : lineFeeds " AS " = 0 := rfl
  unfold callText optionFeeds
  rw [lineFeeds_append, lineFeeds_append, lineFeeds_append, lineFeeds_append,
    lineFeeds_intercalate rfl, hopening, hclosing]
  cases aliasName with
  | none => exact (Nat.add_assoc _ _ _)
  | some a =>
      rw [lineFeeds_append, hkeyword, Option.toList_some, totalFeeds_cons, totalFeeds_nil]
      omega

theorem lineFeeds_windowText (d : Duration) : lineFeeds (windowText d) = 0 := by
  unfold windowText
  rw [lineFeeds_callText, totalFeeds_cons, lineFeeds_token]
  rfl

theorem lineFeeds_quoted (s : String) : lineFeeds ("\"" ++ s ++ "\"") = lineFeeds s := by
  have hmark : lineFeeds "\"" = 0 := rfl
  rw [lineFeeds_append, lineFeeds_append, hmark, Nat.add_zero, Nat.zero_add]

-- By induction on the fragment: of the parts of a fragment only their line feeds count.
mutual

theorem hasSize_compile : ∀ f : Fragment, HasSize lineFeeds f.compile (totalFeeds f.shown)
  | name s => by
    unfold compile shown
    exact HasSize.ok (Identifier.lineFeeds_text s)
  | raw s => by
    unfold compile shown
    exact HasSize.ok rfl
  | quoted s => by
    unfold compile shown
    exact HasSize.ok (lineFeeds_quoted s)
  | window d => by
    unfold compile shown
    exact HasSize.ok (lineFeeds_windowText d)
  | conjunction k => by
    unfold compile shown
    exact HasSize.ok (by cases k <;> rfl)
  | value v => by
    unfold compile shown
    exact HasSize.ok v.lineFeeds_literal
  | condition c => by
    unfold compile shown
    exact fun _ => Condition.lineFeeds_of_compile
  | call function args aliasName => by
    unfold compile shown
    refine (hasSize_compileAll args).bind fun _ hargs => (hasSize_compileOption aliasName).map
      fun _ halias => ?_
    rw [lineFeeds_callText, hargs, halias, totalFeeds_cons, totalFeeds_append]
  | ordered term direction => by
    unfold compile shown
    refine (hasSize_compile term).map fun _ hterm => ?_
    rw [lineFeeds_append, lineFeeds_append, hterm]
    cases direction <;> rfl
  | statement s => by
    unfold compile shown
    exact hasSize_compileStatement s

theorem hasSize_compileAll :
    ∀ fs : List Fragment, HasSize totalFeeds (compileAll fs) (totalFeeds (shownAll fs))
  | [] => by
    unfold compileAll shownAll
    exact HasSize.ok rfl
  | f :: fs => by
    unfold compileAll shownAll
    refine (hasSize_compile f).bind fun _ hf => (hasSize_compileAll fs).map fun _ hfs => ?_
    rw [totalFeeds_cons, hf, hfs, totalFeeds_append]

theorem hasSize_compileOption :
    ∀ f : Option Fragment, HasSize optionFeeds (compileOption f) (totalFeeds (shownOption f))
  | none => by
    unfold compileOption shownOption
    exact HasSize.ok rfl
  | some f => by
    unfold compileOption shownOption
    exact (hasSize_compile f).map fun _ hf => hf

theorem hasSize_compileStatement :
    ∀ s : Statement Fragment, HasSize lineFeeds (compileStatement s) (totalFeeds (shownStatement s))
  | .select s => by
    unfold compileStatement shownStatement
    exact hasSize_compileSelect s
  | .delete s => by
    unfold compileStatement shownStatement
    exact hasSize_compileDelete s
  | .object action object => by
    unfold compileStatement shownStatement
    refine (hasSize_compile object).map fun _ hobject => ?_
    rw [lineFeeds_objectText (by cases action <;> rfl), hobject]
    rfl
  | .retentionPolicy p => by
    unfold compileStatement shownStatement
    exact hasSize_compileRetentionPolicy p
  | .dropRetentionPolicy policy database => by
    unfold compileStatement shownStatement
    refine (hasSize_compile policy).bind fun _ hpolicy =>
      (hasSize_compile database).map fun _ hdatabase => ?_
    rw [lineFeeds_objectText rfl, hpolicy, totalFeeds_append, Option.toList_some, totalFeeds_cons,
      hdatabase]
    rfl
  | .list what database => by
    unfold compileStatement shownStatement
    refine (hasSize_compileOption database).map fun _ hdatabase => ?_
    rw [lineFeeds_showText (by cases what <;> rfl)]
    exact hdatabase
  | .showDatabases => by
    unfold compileStatement shownStatement
    exact HasSize.ok rfl
  | .showKeys kind source => by
    unfold compileStatement shownStatement
    exact hasSize_compileKeys kind source

theorem hasSize_compileSelect :
    ∀ s : Select Fragment, HasSize lineFeeds (compileSelect s) (totalFeeds (shownSelect s))
  | ⟨_, none, _, _, _, _, _, _, _, _, _⟩ => by
    unfold compileSelect
    exact HasSize.error _
  | ⟨fields, some measurement, retentionPolicy, conditions, groupBy, orderBy, _, _, _, _,
      fill⟩ => by
    unfold compileSelect shownSelect
    refine (hasSize_compile measurement).bind fun _ hmeasurement => ?_
    refine (hasSize_compileOption retentionPolicy).bind fun _ hpolicy => ?_
    refine (hasSize_compileAll fields).bind fun _ hfields => ?_
    refine conditions.hasSize_compile.bind fun _ hconditions => ?_
    refine (hasSize_compileAll groupBy).bind fun _ hgroupBy => ?_
    refine (hasSize_compileAll orderBy).bind fun _ horderBy => ?_
    refine (Fill.hasSize_option fill).map fun _ hfill => ?_
    unfold optionFeeds at hpolicy hfill
    rw [Select.Clauses.lineFeeds_text, hmeasurement, hpolicy, hfields, hconditions, hgroupBy,
      horderBy, hfill]
    simp only [totalFeeds_append, shownOption]
    omega

theorem hasSize_compileDelete :
    ∀ s : Delete Fragment, HasSize lineFeeds (compileDelete s) (totalFeeds (shownDelete s))
  | ⟨none, _⟩ => by
    unfold compileDelete
    exact HasSize.error _
  | ⟨some measurement, conditions⟩ => by
    unfold compileDelete shownDelete
    refine (hasSize_compile measurement).bind fun _ hmeasurement =>
      conditions.hasSize_compile.map fun _ hconditions => ?_
    rw [Delete.lineFeeds_text, hmeasurement, hconditions, totalFeeds_append, shownOption]

theorem hasSize_compileRetentionPolicy :
    ∀ p : RetentionPolicy Fragment,
      HasSize lineFeeds (compileRetentionPolicy p) (totalFeeds (shownRetentionPolicy p))
  | ⟨policy, database, _, _, _, _, _⟩ => by
    unfold compileRetentionPolicy shownRetentionPolicy
    refine (hasSize_compile policy).bind fun _ hpolicy =>
      (hasSize_compile database).map fun _ hdatabase => ?_
    rw [RetentionPolicy.lineFeeds_text, hpolicy, hdatabase, totalFeeds_append]

theorem hasSize_compileKeys (kind : KeyKind) :
    ∀ s : KeysScope Fragment, HasSize lineFeeds (compileKeys kind s) (totalFeeds (shownKeys s))
  | ⟨database, measurement, retentionPolicy⟩ => by
    unfold compileKeys shownKeys
    refine (hasSize_compileOption database).bind fun _ hdatabase => ?_
    refine (hasSize_compileOption measurement).bind fun m hmeasurement => ?_
    refine (hasSize_compileOption retentionPolicy).bind fun p hpolicy => ?_
    unfold optionFeeds at hdatabase hmeasurement hpolicy
    have hkeywords : lineFeeds kind.keywords = 0 := by cases kind <;> rfl
    split
    · exact HasSize.error _
    · rename_i hsource
      refine HasSize.ok ?_
      rw [lineFeeds_showText hkeywords, totalFeeds_append, totalFeeds_append, hdatabase, ← hpolicy,
        ← hmeasurement, totalFeeds_source hsource]

end

end Fragment
end SeriesQuery
