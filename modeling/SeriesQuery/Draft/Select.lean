/-
Drafts of SELECT and DELETE.
-/
import SeriesQuery.Draft.Condition
import SeriesQuery.Draft.Fill
import SeriesQuery.Draft.Term
import SeriesQuery.Settings

namespace SeriesQuery

/-- A SELECT as a file gives it. -/
structure SelectDraft where
  fields : List TermDraft
  measurement : Option String
  retentionPolicy : Option String
  conditions : List ConditionDraft
  groupBy : List TermDraft
  orderBy : List TermDraft
  limit : Option Nat
  offset : Option Nat
  seriesLimit : Option Nat
  seriesOffset : Option Nat
  fill : Option FillDraft

namespace SelectDraft

/-- The fields of a SELECT. -/
def layout : Layout :=
  ⟨["fields", "from", "retention_policy", "where", "group_by", "order_by", "limit", "offset",
    "slimit", "soffset", "fill"], true⟩

/-- The SELECT that a record gives. -/
def ofRecord? (r : Record) : Option SelectDraft := do
  if layout.fits r then
    let terms := Slot.orDefault [] TermDraft.listOf?
    let count := Slot.lenient (Document.natBelow? UInt64.size)
    return {
      fields := ← terms (← layout.slot? r "fields")
      measurement := ← (← layout.slot? r "from").lenient Document.text?
      retentionPolicy := ← (← layout.slot? r "retention_policy").lenient Document.text?
      conditions := ← (← layout.slot? r "where").orDefault []
        (Document.listOf? ConditionDraft.ofDocument?)
      groupBy := ← terms (← layout.slot? r "group_by")
      orderBy := ← terms (← layout.slot? r "order_by")
      limit := ← count (← layout.slot? r "limit")
      offset := ← count (← layout.slot? r "offset")
      seriesLimit := ← count (← layout.slot? r "slimit")
      seriesOffset := ← count (← layout.slot? r "soffset")
      fill := ← (← layout.slot? r "fill").lenient FillDraft.ofDocument? }
  else none

/-- The SELECT that is meant, or the first part that means nothing. -/
def build (s : SelectDraft) (settings : Settings) : Composed (Select Fragment) := do
  let fields ← TermDraft.fragments s.fields
  let conditions ← ConditionDraft.clause s.conditions
  let groupBy ← TermDraft.fragments s.groupBy
  let orderBy ← TermDraft.fragments s.orderBy
  let fill ← s.fill.mapM FillDraft.fill
  return {
    fields := fields
    measurement := s.measurement.map Fragment.name
    retentionPolicy := (s.retentionPolicy <|> settings.retentionPolicy).map Fragment.name
    conditions := conditions
    groupBy := groupBy
    orderBy := orderBy
    limit := s.limit
    offset := s.offset
    seriesLimit := s.seriesLimit
    seriesOffset := s.seriesOffset
    fill := fill }

end SelectDraft

/-- A DELETE as a file gives it. -/
structure DeleteDraft where
  measurement : Option String
  conditions : List ConditionDraft

namespace DeleteDraft

/-- The fields of a DELETE. -/
def layout : Layout :=
  ⟨["from", "where"], true⟩

/-- The DELETE that a record gives. -/
def ofRecord? (r : Record) : Option DeleteDraft := do
  if layout.fits r then
    let measurement ← (← layout.slot? r "from").lenient Document.text?
    let conditions ← (← layout.slot? r "where").orDefault []
      (Document.listOf? ConditionDraft.ofDocument?)
    return ⟨measurement, conditions⟩
  else none

/-- The DELETE that is meant. -/
def build (s : DeleteDraft) : Composed (Delete Fragment) := do
  let conditions ← ConditionDraft.clause s.conditions
  return ⟨s.measurement.map Fragment.name, conditions⟩

end DeleteDraft
end SeriesQuery
