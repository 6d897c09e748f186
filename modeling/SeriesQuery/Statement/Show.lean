/-
SHOW statements.

They list databases, what one database has, or the keys of measurements, which a source
narrows down step by step.
-/
import SeriesQuery.Statement.Phrases

namespace SeriesQuery

/-- What a SHOW statement about one database lists. -/
inductive Listing where
  | measurements
  | retentionPolicies
  deriving DecidableEq, Repr

/-- What is listed, as keywords. -/
def Listing.keywords : Listing → String
  | measurements => "MEASUREMENTS"
  | retentionPolicies => "RETENTION POLICIES"

/-- The keys of a measurement. -/
inductive KeyKind where
  | tag
  | field
  deriving DecidableEq, Repr

/-- The kind of keys as keywords. -/
def KeyKind.keywords : KeyKind → String
  | tag => "TAG KEYS"
  | field => "FIELD KEYS"

/-- Where the keys to show come from. -/
structure KeysScope (F : Type) where
  database : Option F
  measurement : Option F
  retentionPolicy : Option F

namespace KeysScope

variable {F : Type}

/-- The keys of every measurement of the current database. -/
def everywhere : KeysScope F :=
  ⟨none, none, none⟩

/-- A step in narrowing down the source. -/
inductive Step (F : Type) where
  | database (d : F)
  | measurement (m : F)
  | retentionPolicy (p : F)

/-- The source after one more step. -/
def apply (s : KeysScope F) : Step F → KeysScope F
  | .database d => { s with database := some d }
  | .measurement m => { s with measurement := some m }
  | .retentionPolicy p => { s with retentionPolicy := some p }

/-- The source after a list of steps. -/
def applyAll (s : KeysScope F) (steps : List (Step F)) : KeysScope F :=
  steps.foldl apply s

@[simp] theorem applyAll_nil (s : KeysScope F) : s.applyAll [] = s := rfl

@[simp] theorem applyAll_cons (s : KeysScope F) (step : Step F) (steps : List (Step F)) :
    s.applyAll (step :: steps) = (s.apply step).applyAll steps := rfl

end KeysScope

/-- A SHOW statement, its parts as they stand in it. -/
def showText (what : String) (database source : Option String) : String :=
  Phrases.text
    ("SHOW" ::
      (Phrases.bare what ++ Phrases.clause "ON" database ++ Phrases.clause "FROM" source))

end SeriesQuery
