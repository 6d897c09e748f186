/-
Queries of the quoted fragment.

A SELECT belongs to the fragment when no text in it is taken as it stands: its names are plain,
and each of its conditions is shorthand that compares a name with one value.  `Select.query?`
says what such a SELECT asks for, however its builder was spelled: the blanks in a condition do
not count, and a missing operator is `=`.

A SELECT of the fragment always composes, and what it composes to depends on the query alone.
-/
import SeriesQuery.Fragment
import SeriesQuery.Proofs.Condition.Shorthand
import SeriesQuery.Proofs.Literal

namespace SeriesQuery

/-! ### Comparisons -/

/-- An operator of a shorthand condition. -/
inductive Operator where
  | equal
  | notEqual
  | different
  | less
  | atMost
  | greater
  | atLeast
  | matching
  | notMatching
  deriving DecidableEq, Repr

namespace Operator

/-- The operator as it is written. -/
def symbol : Operator → String
  | equal => "="
  | notEqual => "!="
  | different => "<>"
  | less => "<"
  | atMost => "<="
  | greater => ">"
  | atLeast => ">="
  | matching => "=~"
  | notMatching => "!~"

/-- The operator that is written so, if there is one. -/
def ofSymbol? (s : String) : Option Operator :=
  [equal, notEqual, different, less, atMost, greater, atLeast, matching, notMatching].find?
    fun o => o.symbol == s

theorem symbol_of_ofSymbol? {s : String} {o : Operator} (h : ofSymbol? s = some o) :
    o.symbol = s := by
  have hfound := List.find?_some h
  exact eq_of_beq hfound

theorem ofSymbol?_symbol (o : Operator) : ofSymbol? o.symbol = some o := by
  cases o <;> rfl

theorem symbol_injective : Function.Injective symbol := by
  intro o o' h
  have hsome := ofSymbol?_symbol o
  rw [h, ofSymbol?_symbol] at hsome
  exact (Option.some.inj hsome).symm

end Operator

/-- A name compared with the literal of a value. -/
structure Comparison where
  name : String
  operator : Operator
  value : String
  /-- The literal shows where it ends. -/
  isLiteral : IsLiteral value.toList
  deriving DecidableEq

namespace Comparison

/-- The comparison of a name with a value, if there is such an operator and the value's literal
    shows where it ends. -/
def of? (name operator : String) (v : Value) : Option Comparison := do
  let operator ← Operator.ofSymbol? operator
  if h : v.IsQuoteFree then some ⟨name, operator, v.literal, v.isLiteral_literal h⟩ else none

/-- The comparison as it stands in a statement. -/
def text (c : Comparison) : String :=
  Identifier.quote c.name ++ " " ++ c.operator.symbol ++ " " ++ c.value

theorem text_of_of? {name operator : String} {v : Value} {c : Comparison}
    (h : of? name operator v = some c) :
    c.text = Identifier.quote name ++ " " ++ operator ++ " " ++ v.literal := by
  obtain ⟨o, ho, h⟩ := Option.bind_eq_some_iff.mp h
  split at h
  · cases h
    unfold text
    rw [Operator.symbol_of_ofSymbol? ho]
  · cases h

end Comparison

namespace Condition

/-- What a shorthand condition of one value compares. -/
def comparison? (c : Condition) : Option Comparison :=
  if c.places = 0 then
    match c.words, c.values with
    | [name], [v] => Comparison.of? name "=" v
    | [name, operator], [v] => Comparison.of? name operator v
    | _, _ => none
  else none

theorem compile_of_comparison? {c : Condition} {x : Comparison} (h : c.comparison? = some x) :
    c.compile = .ok x.text := by
  unfold comparison? at h
  split at h
  · rename_i hplaces
    split at h
    · rename_i name v hwords hvalue
      rw [Comparison.text_of_of? h, compile_of_one_word hplaces hwords hvalue]
    · rename_i name operator v hwords hvalue
      rw [Comparison.text_of_of? h, compile_of_two_words hplaces hwords hvalue]
    · cases h
  · cases h

end Condition

/-- A first comparison and the others, each behind the conjunction that joins it. -/
abbrev Comparisons :=
  Comparison × List (Conjunction × Comparison)

/-- The comparisons and conjunctions as they stand in a statement. -/
def Comparisons.texts (cs : Comparisons) : List String :=
  cs.1.text :: cs.2.flatMap fun (k, c) => [k.keyword, c.text]

namespace WhereClause

/-- A further condition of a WHERE clause as a comparison. -/
def furtherComparison? (x : Conjunction × Condition) : Option (Conjunction × Comparison) :=
  x.2.comparison?.map (x.1, ·)

/-- What the conditions of a WHERE clause compare; nothing, without the clause. -/
def comparisons? : WhereClause → Option (Option Comparisons)
  | none => some .none
  | chain first rest => do
    let first ← first.comparison?
    let rest ← rest.mapM furtherComparison?
    return some (first, rest)

private theorem mapM_further {rest : List (Conjunction × Condition)} :
    ∀ {xs : List (Conjunction × Comparison)}, rest.mapM furtherComparison? = some xs →
      (rest.flatMap fun (k, c) => [Term.conjunction k, .condition c]).mapM Term.compile =
        .ok (xs.flatMap fun (k, c) => [k.keyword, c.text]) := by
  induction rest with
  | nil =>
      intro xs h
      cases h
      rfl
  | cons x rest ih =>
      intro xs h
      rw [List.mapM_cons] at h
      obtain ⟨y, hy, h⟩ := Option.bind_eq_some_iff.mp h
      obtain ⟨ys, hys, h⟩ := Option.bind_eq_some_iff.mp h
      cases h
      obtain ⟨c, hc, rfl⟩ := Option.map_eq_some_iff.mp hy
      rw [List.flatMap_cons, List.mapM_append, ih hys]
      simp only [List.mapM_cons, List.mapM_nil, Term.compile,
        Condition.compile_of_comparison? hc, List.flatMap_cons]
      rfl

theorem compile_of_comparisons? {cs : WhereClause} {xs : Option Comparisons}
    (h : cs.comparisons? = some xs) :
    cs.compile = .ok (xs.elim [] Comparisons.texts) := by
  cases cs with
  | none =>
      cases h
      rfl
  | chain first rest =>
      obtain ⟨x, hx, h⟩ := Option.bind_eq_some_iff.mp h
      obtain ⟨ys, hys, h⟩ := Option.bind_eq_some_iff.mp h
      cases h
      unfold compile terms
      rw [List.mapM_cons, mapM_further hys]
      simp only [Term.compile, Condition.compile_of_comparison? hx]
      rfl

end WhereClause

/-! ### Names and terms to sort by -/

namespace Fragment

/-- The name that a fragment is, if it is written between quotes. -/
def plainName? : Fragment → Option String
  | name s => if Identifier.IsPlain s then some s else none
  | _ => none

theorem compile_of_plainName? {f : Fragment} {s : String} (h : f.plainName? = some s) :
    f.compile = .ok (Identifier.quote s) := by
  cases f with
  | name t =>
      simp only [plainName?] at h
      split at h
      · rename_i hplain
        cases h
        unfold compile
        rw [Identifier.text_of_isPlain hplain]
      · cases h
  | _ => cases h

/-- The name to sort by, and the direction if there is one. -/
def sortTerm? : Fragment → Option (String × Option SortDirection)
  | ordered term direction => term.plainName?.map (·, some direction)
  | term => term.plainName?.map (·, none)

/-- A term to sort by as it stands in a statement. -/
def sortText (x : String × Option SortDirection) : String :=
  Identifier.quote x.1 ++ x.2.elim "" fun d => " " ++ d.keyword

theorem compile_of_sortTerm? {f : Fragment} {x : String × Option SortDirection}
    (h : f.sortTerm? = some x) : f.compile = .ok (sortText x) := by
  have hplain : ∀ {g : Fragment}, g.plainName?.map (·, Option.none) = some x →
      g.compile = .ok (sortText x) := by
    intro g hg
    obtain ⟨s, hs, rfl⟩ := Option.map_eq_some_iff.mp hg
    rw [compile_of_plainName? hs]
    unfold sortText
    rw [Option.elim_none, String.append_empty]
  cases f with
  | ordered term direction =>
      obtain ⟨s, hs, rfl⟩ := Option.map_eq_some_iff.mp h
      unfold compile
      rw [compile_of_plainName? hs]
      show Except.ok (Identifier.quote s ++ " " ++ direction.keyword) = _
      rw [String.append_assoc]
      rfl
  | _ => exact hplain h

/-- Fragments that are all read compile to what is read. -/
theorem compileAll_of_mapM {α : Type} {read? : Fragment → Option α} {write : α → String}
    (hread : ∀ f a, read? f = some a → f.compile = .ok (write a)) {fs : List Fragment} :
    ∀ {as : List α}, fs.mapM read? = some as → compileAll fs = .ok (as.map write) := by
  induction fs with
  | nil =>
      intro as h
      cases h
      unfold compileAll
      rfl
  | cons f fs ih =>
      intro as h
      rw [List.mapM_cons] at h
      obtain ⟨a, ha, h⟩ := Option.bind_eq_some_iff.mp h
      obtain ⟨as', has, h⟩ := Option.bind_eq_some_iff.mp h
      cases h
      unfold compileAll
      rw [hread f a ha, ih has]
      rfl

theorem compileOption_of_mapM {f : Option Fragment} {name : Option String}
    (h : f.mapM plainName? = some name) :
    compileOption f = .ok (name.map Identifier.quote) := by
  cases f with
  | none =>
      cases h
      unfold compileOption
      rfl
  | some f =>
      rw [Option.mapM_some] at h
      obtain ⟨s, hs, rfl⟩ := Option.map_eq_some_iff.mp h
      unfold compileOption
      rw [compile_of_plainName? hs]
      rfl

end Fragment

/-! ### Queries -/

/-- What a SELECT of the quoted fragment asks for. -/
@[ext] structure Query where
  /-- The fields; everything, if there is none. -/
  fields : List String
  measurement : String
  retentionPolicy : Option String
  conditions : Option Comparisons
  groupBy : List String
  orderBy : List (String × Option SortDirection)
  limit : Option Nat
  offset : Option Nat
  seriesLimit : Option Nat
  seriesOffset : Option Nat
  /-- What stands between the parentheses of the fill. -/
  fill : Option String

/-- What the SELECT asks for, if it belongs to the quoted fragment. -/
def Select.query? (s : Select Fragment) : Option Query := do
  let measurement ← s.measurement
  let measurement ← measurement.plainName?
  let retentionPolicy ← s.retentionPolicy.mapM Fragment.plainName?
  let fields ← s.fields.mapM Fragment.plainName?
  let conditions ← s.conditions.comparisons?
  let groupBy ← s.groupBy.mapM Fragment.plainName?
  let orderBy ← s.orderBy.mapM Fragment.sortTerm?
  let fill ← (s.fill.mapM Fill.compile).toOption
  return ⟨fields, measurement, retentionPolicy, conditions, groupBy, orderBy, s.limit, s.offset,
    s.seriesLimit, s.seriesOffset, fill⟩

namespace Query

/-- The parts of the query as they stand in the statement. -/
def clauses (q : Query) : Select.Clauses where
  fields := q.fields.map Identifier.quote
  measurement := Identifier.quote q.measurement
  retentionPolicy := q.retentionPolicy.map Identifier.quote
  conditions := q.conditions.elim [] Comparisons.texts
  groupBy := q.groupBy.map Identifier.quote
  orderBy := q.orderBy.map Fragment.sortText
  limit := q.limit
  offset := q.offset
  seriesLimit := q.seriesLimit
  seriesOffset := q.seriesOffset
  fill := q.fill

/-- The statement that asks the query. -/
def text (q : Query) : String :=
  q.clauses.text

end Query

/-- A SELECT of the fragment composes to the statement that asks its query. -/
theorem Select.compile_of_query? {s : Select Fragment} {q : Query} (h : s.query? = some q) :
    (Statement.select s).compile = .ok q.text := by
  unfold query? at h
  obtain ⟨m, hm, h⟩ := Option.bind_eq_some_iff.mp h
  obtain ⟨measurement, hmeasurement, h⟩ := Option.bind_eq_some_iff.mp h
  obtain ⟨policy, hpolicy, h⟩ := Option.bind_eq_some_iff.mp h
  obtain ⟨fields, hfields, h⟩ := Option.bind_eq_some_iff.mp h
  obtain ⟨conditions, hconditions, h⟩ := Option.bind_eq_some_iff.mp h
  obtain ⟨groupBy, hgroupBy, h⟩ := Option.bind_eq_some_iff.mp h
  obtain ⟨orderBy, horderBy, h⟩ := Option.bind_eq_some_iff.mp h
  obtain ⟨fill, hfill, h⟩ := Option.bind_eq_some_iff.mp h
  cases h
  have hnames := fun f a => Fragment.compile_of_plainName? (f := f) (s := a)
  have hterms := fun f a => Fragment.compile_of_sortTerm? (f := f) (x := a)
  cases s
  cases hm
  show Fragment.compileStatement (.select _) = _
  unfold Fragment.compileStatement Fragment.compileSelect
  simp only at hpolicy hfields hconditions hgroupBy horderBy hfill
  rw [Fragment.compile_of_plainName? hmeasurement, Fragment.compileOption_of_mapM hpolicy,
    Fragment.compileAll_of_mapM hnames hfields, WhereClause.compile_of_comparisons? hconditions,
    Fragment.compileAll_of_mapM hnames hgroupBy, Fragment.compileAll_of_mapM hterms horderBy]
  cases hf : Option.mapM Fill.compile _ with
  | error e =>
      rw [hf] at hfill
      cases hfill
  | ok text =>
      rw [hf] at hfill
      cases hfill
      rfl

end SeriesQuery
