/-
Drafts of what SHOW TAG KEYS and SHOW FIELD KEYS are about.
-/
import SeriesQuery.Fragment
import SeriesQuery.Settings

namespace SeriesQuery

/-- Where the keys to show come from, as a file gives it. -/
structure KeysDraft where
  database : Option String
  measurement : Option String
  retentionPolicy : Option String

namespace KeysDraft

/-- The fields of such a draft. -/
def layout : Layout :=
  ⟨["database", "from", "retention_policy"], true⟩

/-- The draft that a record gives. -/
def ofRecord? (r : Record) : Option KeysDraft := do
  if layout.fits r then
    let database ← (← layout.slot? r "database").lenient Document.text?
    let measurement ← (← layout.slot? r "from").lenient Document.text?
    let retentionPolicy ← (← layout.slot? r "retention_policy").lenient Document.text?
    return ⟨database, measurement, retentionPolicy⟩
  else none

/-- The retention policy to qualify the measurement with: the settings' one only where there
    is a measurement to qualify. -/
def effectivePolicy (s : KeysDraft) (settings : Settings) : Option String :=
  match s.retentionPolicy, s.measurement with
  | some policy, _ => some policy
  | none, some _ => settings.retentionPolicy
  | none, none => none

/-- The scope that is meant. -/
def build (s : KeysDraft) (settings : Settings) : KeysScope Fragment :=
  ⟨(s.database <|> settings.database).map Fragment.name, s.measurement.map Fragment.name,
    (s.effectivePolicy settings).map Fragment.name⟩

end KeysDraft
end SeriesQuery
