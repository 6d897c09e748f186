/-
Statements of the query language.
-/
import SeriesQuery.Statement.Select
import SeriesQuery.Statement.Delete
import SeriesQuery.Statement.RetentionPolicy
import SeriesQuery.Statement.Show

namespace SeriesQuery

/-- What a CREATE or DROP statement with a single name is about. -/
inductive ObjectAction where
  | createDatabase
  | dropDatabase
  | dropMeasurement
  deriving DecidableEq, Repr

/-- The keywords that the statement opens with. -/
def ObjectAction.keywords : ObjectAction → String
  | createDatabase => "CREATE DATABASE"
  | dropDatabase => "DROP DATABASE"
  | dropMeasurement => "DROP MEASUREMENT"

/-- A statement whose parts are of the type `F`. -/
inductive Statement (F : Type) where
  | select (s : Select F)
  | delete (s : Delete F)
  | object (action : ObjectAction) (name : F)
  | retentionPolicy (p : RetentionPolicy F)
  | dropRetentionPolicy (name database : F)
  | list (what : Listing) (database : Option F)
  | showDatabases
  | showKeys (kind : KeyKind) (source : KeysScope F)

/-- A statement that names an object and, possibly, the database it is on. -/
def objectText (keywords name : String) (database : Option String) : String :=
  Phrases.text (keywords :: (Phrases.bare name ++ Phrases.clause "ON" database))

end SeriesQuery
