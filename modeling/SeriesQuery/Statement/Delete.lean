/-
DELETE statements.
-/
import SeriesQuery.Statement.Phrases
import SeriesQuery.WhereClause

namespace SeriesQuery

/-- The parts of a DELETE. -/
structure Delete (F : Type) where
  measurement : Option F
  conditions : WhereClause

namespace Delete

variable {F : Type}

/-- A DELETE with no part set. -/
def empty : Delete F :=
  ⟨none, .none⟩

/-- A step in putting a DELETE together. -/
inductive Step (F : Type) where
  | measurement (m : F)
  /-- Starts the WHERE clause over with one condition. -/
  | only (c : Condition)
  /-- Adds a condition to the WHERE clause. -/
  | join (k : Conjunction) (c : Condition)

/-- The DELETE after one more step. -/
def apply (s : Delete F) : Step F → Delete F
  | .measurement m => { s with measurement := some m }
  | .only c => { s with conditions := .only c }
  | .join k c => { s with conditions := s.conditions.join k c }

/-- The DELETE after a list of steps. -/
def applyAll (s : Delete F) (steps : List (Step F)) : Delete F :=
  steps.foldl apply s

@[simp] theorem applyAll_nil (s : Delete F) : s.applyAll [] = s := rfl

@[simp] theorem applyAll_cons (s : Delete F) (step : Step F) (steps : List (Step F)) :
    s.applyAll (step :: steps) = (s.apply step).applyAll steps := rfl

/-- The statement, its parts as they stand in it. -/
def text (measurement : String) (conditions : List String) : String :=
  Phrases.text
    ("DELETE FROM" :: (Phrases.bare measurement ++ Phrases.listClause "WHERE" " " conditions))

end Delete
end SeriesQuery
