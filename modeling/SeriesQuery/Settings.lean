/-
Settings.

What the user sets once: the database and the retention policy for statements that name
none, and the format of the output.
-/
import SeriesQuery.Error
import SeriesQuery.Record

namespace SeriesQuery

/-- How composed statements are printed. -/
inductive OutputFormat where
  /-- One statement a line. -/
  | text
  /-- A JSON list of texts. -/
  | json
  deriving DecidableEq, Repr

/-- The format with a name. -/
def OutputFormat.ofName? : String → Option OutputFormat
  | "text" => some text
  | "json" => some json
  | _ => none

/-- The user's settings. -/
structure Settings where
  database : Option String
  retentionPolicy : Option String
  format : OutputFormat
  deriving DecidableEq, Repr

namespace Settings

/-- The settings of a user who sets nothing. -/
def empty : Settings :=
  ⟨none, none, .text⟩

/-- The fields of settings. -/
def layout : Layout :=
  ⟨["database", "retention_policy", "format"], true⟩

/-- Whether the member of a choice says nothing: it is an empty table or list. -/
def saysNothing : Document → Bool
  | .table [] | .list [] => true
  | _ => false

/-- The settings that a document gives. -/
def ofDocument? (d : Document) : Option Settings := do
  let r ← d.record?
  if layout.fits r then
    let database ← (← layout.slot? r "database").lenient Document.text?
    let retentionPolicy ← (← layout.slot? r "retention_policy").lenient Document.text?
    let format ← (← layout.slot? r "format").orDefault .text fun d => do
      OutputFormat.ofName? (← d.choice? saysNothing)
    return ⟨database, retentionPolicy, format⟩
  else none

/-- The database that a statement names, else that of the settings, for a statement that
    cannot do without one. -/
def requireDatabase (settings : Settings) (named : Option String) : Composed String :=
  match named <|> settings.database with
  | some database => .ok database
  | none => .error .noDatabase

end Settings
end SeriesQuery
