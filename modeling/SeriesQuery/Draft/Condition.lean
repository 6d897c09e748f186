/-
Drafts of conditions.

A WHERE clause is a list of conditions, each with its text, its values and the conjunction
that joins it to those before.  The conjunction of the first one has no effect.
-/
import SeriesQuery.Draft.Value
import SeriesQuery.WhereClause

namespace SeriesQuery

/-- A condition as a file gives it. -/
structure ConditionDraft where
  expression : String
  values : List ValueDraft
  join : Conjunction

namespace ConditionDraft

/-- The fields of a condition. -/
def layout : Layout :=
  ⟨["expr", "values", "join"], true⟩

/-- Whether the member of a choice says nothing: it is null or an empty table. -/
def saysNothing : Document → Bool
  | .null | .table [] => true
  | _ => false

/-- The conjunction that a document names. -/
def conjunction? (d : Document) : Option Conjunction := do
  match ← d.choice? saysNothing with
  | "and" => some .and
  | "or" => some .or
  | _ => none

/-- The condition that a document gives. -/
def ofDocument? (d : Document) : Option ConditionDraft := do
  let r ← d.record?
  if layout.fits r then
    let expression ← (← layout.slot? r "expr").required Document.text?
    let values ← (← layout.slot? r "values").orDefault []
      (Document.listOf? ValueDraft.ofDocument?)
    let join ← (← layout.slot? r "join").orDefault .and conjunction?
    return ⟨expression, values, join⟩
  else none

/-- The condition that is meant. -/
def condition (c : ConditionDraft) : Composed Condition := do
  let values ← c.values.mapM ValueDraft.value
  return ⟨c.expression, values⟩

/-- The WHERE clause that conditions make up. -/
def clause (drafts : List ConditionDraft) : Composed WhereClause := do
  let conditions ← drafts.mapM fun c => return (c.join, ← c.condition)
  match conditions with
  | [] => return .none
  | (_, first) :: rest => return .chain first rest

end ConditionDraft
end SeriesQuery
