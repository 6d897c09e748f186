/-
SELECT statements.

A SELECT is put together step by step.  A step sets one part, whatever that part was
before; only the steps that add a condition build on what is there.  Parts that are
themselves composed of fragments are kept in the type parameter `F`.
-/
import SeriesQuery.Fill
import SeriesQuery.Statement.Phrases
import SeriesQuery.WhereClause

namespace SeriesQuery

/-- The parts of a SELECT. -/
structure Select (F : Type) where
  /-- What is selected; everything, if there is none. -/
  fields : List F
  measurement : Option F
  /-- What qualifies the measurement. -/
  retentionPolicy : Option F
  conditions : WhereClause
  groupBy : List F
  orderBy : List F
  /-- How many points a series gives at most. -/
  limit : Option Nat
  /-- How many points of a series are skipped. -/
  offset : Option Nat
  /-- How many series there are at most. -/
  seriesLimit : Option Nat
  /-- How many series are skipped. -/
  seriesOffset : Option Nat
  /-- What stands in time windows without data. -/
  fill : Option Fill

namespace Select

variable {F : Type}

/-- A SELECT of the fields with no other part set. -/
def ofFields (fields : List F) : Select F where
  fields := fields
  measurement := none
  retentionPolicy := none
  conditions := .none
  groupBy := []
  orderBy := []
  limit := none
  offset := none
  seriesLimit := none
  seriesOffset := none
  fill := none

/-- A step in putting a SELECT together. -/
inductive Step (F : Type) where
  | measurement (m : F)
  | retentionPolicy (p : F)
  /-- Starts the WHERE clause over with one condition. -/
  | only (c : Condition)
  /-- Adds a condition to the WHERE clause. -/
  | join (k : Conjunction) (c : Condition)
  | groupBy (terms : List F)
  | orderBy (terms : List F)
  | limit (n : Nat)
  | offset (n : Nat)
  | seriesLimit (n : Nat)
  | seriesOffset (n : Nat)
  | fill (f : Fill)

/-- The SELECT after one more step. -/
def apply (s : Select F) : Step F → Select F
  | .measurement m => { s with measurement := some m }
  | .retentionPolicy p => { s with retentionPolicy := some p }
  | .only c => { s with conditions := .only c }
  | .join k c => { s with conditions := s.conditions.join k c }
  | .groupBy terms => { s with groupBy := terms }
  | .orderBy terms => { s with orderBy := terms }
  | .limit n => { s with limit := some n }
  | .offset n => { s with offset := some n }
  | .seriesLimit n => { s with seriesLimit := some n }
  | .seriesOffset n => { s with seriesOffset := some n }
  | .fill f => { s with fill := some f }

/-- The SELECT after a list of steps. -/
def applyAll (s : Select F) (steps : List (Step F)) : Select F :=
  steps.foldl apply s

@[simp] theorem applyAll_nil (s : Select F) : s.applyAll [] = s := rfl

@[simp] theorem applyAll_cons (s : Select F) (step : Step F) (steps : List (Step F)) :
    s.applyAll (step :: steps) = (s.apply step).applyAll steps := rfl

/-- The parts of a SELECT as they stand in the statement. -/
structure Clauses where
  fields : List String
  measurement : String
  retentionPolicy : Option String
  conditions : List String
  groupBy : List String
  orderBy : List String
  limit : Option Nat
  offset : Option Nat
  seriesLimit : Option Nat
  seriesOffset : Option Nat
  fill : Option String

/-- What is selected: everything, unless fields are named. -/
def Clauses.selection (c : Clauses) : String :=
  if c.fields.isEmpty then "*" else ", ".intercalate c.fields

/-- The phrases of the statement, in order. -/
def Clauses.phrases (c : Clauses) : Phrases :=
  "SELECT" ::
    (Phrases.bare c.selection ++
      Phrases.clause "FROM" (some (qualifiedName c.retentionPolicy c.measurement)) ++
      Phrases.listClause "WHERE" " " c.conditions ++
      Phrases.listClause "GROUP BY" ", " c.groupBy ++
      Phrases.listClause "ORDER BY" ", " c.orderBy ++
      Phrases.numberClause "LIMIT" c.limit ++
      Phrases.numberClause "OFFSET" c.offset ++
      Phrases.numberClause "SLIMIT" c.seriesLimit ++
      Phrases.numberClause "SOFFSET" c.seriesOffset ++
      c.fill.toList.map fun f => "fill(" ++ f ++ ")")

/-- The statement. -/
def Clauses.text (c : Clauses) : String :=
  c.phrases.text

end Select
end SeriesQuery
