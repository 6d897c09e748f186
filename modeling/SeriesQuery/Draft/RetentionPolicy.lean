/-
Drafts of retention policies.
-/
import SeriesQuery.Fragment
import SeriesQuery.Settings

namespace SeriesQuery

/-- A retention policy to create or to alter, as a file gives it. -/
structure RetentionPolicyDraft where
  name : String
  database : Option String
  /-- The token of the duration. -/
  duration : String
  replication : Nat
  /-- The token of the shard duration. -/
  shardDuration : Option String
  isDefault : Bool

namespace RetentionPolicyDraft

/-- The fields of a retention policy. -/
def layout : Layout :=
  ⟨["name", "database", "duration", "replication", "shard_duration", "default"], true⟩

/-- The retention policy that a record gives. -/
def ofRecord? (r : Record) : Option RetentionPolicyDraft := do
  if layout.fits r then
    let name ← (← layout.slot? r "name").required Document.text?
    let database ← (← layout.slot? r "database").optional Document.text?
    let duration ← (← layout.slot? r "duration").required Document.text?
    let replication ← (← layout.slot? r "replication").required (Document.natBelow? UInt32.size)
    let shardDuration ← (← layout.slot? r "shard_duration").optional Document.text?
    let isDefault ← (← layout.slot? r "default").orDefault false Document.bool?
    return ⟨name, database, duration, replication, shardDuration, isDefault⟩
  else none

/-- The statement that creates or alters the policy. -/
def build (s : RetentionPolicyDraft) (settings : Settings) (isAlter : Bool) :
    Composed (RetentionPolicy Fragment) := do
  let database ← settings.requireDatabase s.database
  let duration ← Duration.parse s.duration
  let shardDuration ← s.shardDuration.mapM Duration.parse
  return ⟨.name s.name, .name database, duration, s.replication, shardDuration, s.isDefault,
    isAlter⟩

end RetentionPolicyDraft
end SeriesQuery
