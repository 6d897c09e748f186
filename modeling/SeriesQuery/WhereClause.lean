/-
WHERE clauses.

A WHERE clause is a first condition and any number of further ones, each with the
conjunction that joins it to those before.  So its terms alternate between conditions and
conjunctions, and no conjunction comes first or last.
-/
import SeriesQuery.Condition

namespace SeriesQuery

/-- What joins a condition to those before it. -/
inductive Conjunction where
  | and
  | or
  deriving DecidableEq, Repr

/-- The conjunction as a keyword. -/
def Conjunction.keyword : Conjunction → String
  | and => "AND"
  | or => "OR"

/-- The conditions of a WHERE clause; none without the clause. -/
inductive WhereClause where
  | none
  | chain (first : Condition) (rest : List (Conjunction × Condition))
  deriving DecidableEq

namespace WhereClause

/-- The clause of one condition. -/
def only (c : Condition) : WhereClause :=
  chain c []

/-- Adds a condition behind the others.  Before the first one no conjunction stands. -/
def join (k : Conjunction) (c : Condition) : WhereClause → WhereClause
  | none => only c
  | chain first rest => chain first (rest ++ [(k, c)])

/-- A condition or a conjunction of a WHERE clause. -/
inductive Term where
  | condition (c : Condition)
  | conjunction (k : Conjunction)
  deriving DecidableEq

/-- The conditions with the conjunctions between them. -/
def terms : WhereClause → List Term
  | none => []
  | chain first rest =>
    .condition first :: rest.flatMap fun (k, c) => [.conjunction k, .condition c]

@[simp] theorem terms_only (c : Condition) : (only c).terms = [.condition c] := rfl

@[simp] theorem terms_join_none (k : Conjunction) (c : Condition) :
    (none.join k c).terms = [.condition c] := rfl

theorem terms_join_chain (k : Conjunction) (c first : Condition)
    (rest : List (Conjunction × Condition)) :
    ((chain first rest).join k c).terms =
      (chain first rest).terms ++ [.conjunction k, .condition c] := by
  simp [join, terms]

/-- The term as it stands in a statement. -/
def Term.compile : Term → Composed String
  | condition c => c.compile
  | conjunction k => .ok k.keyword

/-- The terms as they stand in a statement, or the first failure. -/
def compile (cs : WhereClause) : Composed (List String) :=
  cs.terms.mapM Term.compile

end WhereClause
end SeriesQuery
