/-
Batches of statements.

A batch is what a statement file holds: drafts, in order.  It is composed as a whole or not at
all, and the first draft that fails says why.
-/
import SeriesQuery.Draft.Statement

namespace SeriesQuery

/-- Drafts in the order of their file. -/
structure Batch where
  statements : List StatementDraft

namespace Batch

/-- The fields of a batch. -/
def layout : Layout :=
  ⟨["statement"], true⟩

/-- The batch that a document gives. -/
def ofDocument? (d : Document) : Option Batch := do
  let r ← d.record?
  if layout.fits r then
    let statements ← (← layout.slot? r "statement").orDefault []
      (Document.listOf? StatementDraft.ofDocument?)
    return ⟨statements⟩
  else none

/-- All statements as texts, or the first failure. -/
def compile (settings : Settings) (b : Batch) : Composed (List String) :=
  b.statements.mapM (StatementDraft.compile settings)

end Batch
end SeriesQuery
