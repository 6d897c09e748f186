/-
CREATE RETENTION POLICY and ALTER RETENTION POLICY.
-/
import SeriesQuery.Duration.Token
import SeriesQuery.Statement.Phrases

namespace SeriesQuery

/-- A retention policy to create or to alter. -/
structure RetentionPolicy (F : Type) where
  name : F
  database : F
  duration : Duration
  replication : Nat
  shardDuration : Option Duration
  isDefault : Bool
  isAlter : Bool

namespace RetentionPolicy

variable {F : Type}

/-- A policy to create, with what it cannot do without. -/
def create (name database : F) (duration : Duration) (replication : Nat) : RetentionPolicy F :=
  ⟨name, database, duration, replication, none, false, false⟩

/-- A step in putting the statement together. -/
inductive Step where
  | shardDuration (d : Duration)
  | alter
  | makeDefault

/-- The policy after one more step. -/
def apply (p : RetentionPolicy F) : Step → RetentionPolicy F
  | .shardDuration d => { p with shardDuration := some d }
  | .alter => { p with isAlter := true }
  | .makeDefault => { p with isDefault := true }

/-- The policy after a list of steps. -/
def applyAll (p : RetentionPolicy F) (steps : List Step) : RetentionPolicy F :=
  steps.foldl apply p

@[simp] theorem applyAll_nil (p : RetentionPolicy F) : p.applyAll [] = p := rfl

@[simp] theorem applyAll_cons (p : RetentionPolicy F) (step : Step) (steps : List Step) :
    p.applyAll (step :: steps) = (p.apply step).applyAll steps := rfl

/-- The statement that creates or alters the policy. -/
def text (p : RetentionPolicy String) : String :=
  Phrases.text
    ((if p.isAlter then "ALTER" else "CREATE") ::
      (Phrases.clause "RETENTION POLICY" (some p.name) ++
        Phrases.clause "ON" (some p.database) ++
        Phrases.clause "DURATION" (some p.duration.token) ++
        Phrases.clause "REPLICATION" (some (toString p.replication)) ++
        Phrases.clause "SHARD DURATION" (p.shardDuration.map Duration.token) ++
        if p.isDefault then ["DEFAULT"] else []))

end RetentionPolicy
end SeriesQuery
