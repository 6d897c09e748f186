/-
Drafts of statements.

A draft is a statement as a file gives it: a table whose `kind` says which statement it is,
or a list that starts with the kind.  Building a statement takes a database or a retention
policy that its draft does not name from the settings, and turns durations, values and fill
options into what they mean.
-/
import SeriesQuery.Draft.Keys
import SeriesQuery.Draft.RetentionPolicy
import SeriesQuery.Draft.Select

namespace SeriesQuery

/-- A statement as a file gives it. -/
inductive StatementDraft where
  | select (s : SelectDraft)
  | delete (s : DeleteDraft)
  | object (action : ObjectAction) (name : String)
  | retentionPolicy (s : RetentionPolicyDraft) (isAlter : Bool)
  | dropRetentionPolicy (name : String) (database : Option String)
  | list (what : Listing) (database : Option String)
  | showDatabases
  | showKeys (kind : KeyKind) (s : KeysDraft)

namespace StatementDraft

/-- A statement about the object that a record names. -/
def object? (action : ObjectAction) (r : Record) : Option StatementDraft := do
  let layout : Layout := ⟨["name"], false⟩
  if layout.fits r then
    return object action (← (← layout.slot? r "name").required Document.text?)
  else none

/-- A statement that drops the retention policy that a record names. -/
def dropRetentionPolicy? (r : Record) : Option StatementDraft := do
  let layout : Layout := ⟨["name", "database"], false⟩
  if layout.fits r then
    let name ← (← layout.slot? r "name").required Document.text?
    let database ← (← layout.slot? r "database").optional Document.text?
    return dropRetentionPolicy name database
  else none

/-- A statement that lists what is on the database that a record names. -/
def list? (what : Listing) (r : Record) : Option StatementDraft := do
  let layout : Layout := ⟨["database"], false⟩
  if layout.fits r then
    return list what (← (← layout.slot? r "database").optional Document.text?)
  else none

/-- The statement of a kind that a record gives. -/
def ofRecord? (kind : String) (r : Record) : Option StatementDraft :=
  match kind with
  | "select" => select <$> SelectDraft.ofRecord? r
  | "delete" => delete <$> DeleteDraft.ofRecord? r
  | "create_database" => object? .createDatabase r
  | "drop_database" => object? .dropDatabase r
  | "drop_measurement" => object? .dropMeasurement r
  | "create_retention_policy" => (retentionPolicy · false) <$> RetentionPolicyDraft.ofRecord? r
  | "alter_retention_policy" => (retentionPolicy · true) <$> RetentionPolicyDraft.ofRecord? r
  | "drop_retention_policy" => dropRetentionPolicy? r
  | "show_measurements" => list? .measurements r
  | "show_retention_policies" => list? .retentionPolicies r
  | "show_databases" => if Layout.fits ⟨[], false⟩ r then some showDatabases else none
  | "show_tag_keys" => showKeys .tag <$> KeysDraft.ofRecord? r
  | "show_field_keys" => showKeys .field <$> KeysDraft.ofRecord? r
  | _ => none

/-- The key that says which statement a table gives. -/
def kindKey : String := "kind"

/-- The statement that a document gives. -/
def ofDocument? : Document → Option StatementDraft
  | .table members =>
    match members.filter fun (key, _) => key == kindKey with
    | [(_, .text kind)] =>
      ofRecord? kind (.keyed (members.filter fun (key, _) => !(key == kindKey)))
    | _ => none
  | .list (.text kind :: items) => ofRecord? kind (.placed items)
  | _ => none

/-- The statement that is meant, with what it leaves open taken from the settings. -/
def build (settings : Settings) : StatementDraft → Composed (Statement Fragment)
  | select s => (s.build settings).map Statement.select
  | delete s => s.build.map Statement.delete
  | object action name => .ok (.object action (.name name))
  | retentionPolicy s isAlter => (s.build settings isAlter).map Statement.retentionPolicy
  | dropRetentionPolicy name database => do
    let database ← settings.requireDatabase database
    return .dropRetentionPolicy (.name name) (.name database)
  | list what database =>
    .ok (.list what ((database <|> settings.database).map Fragment.name))
  | showDatabases => .ok .showDatabases
  | showKeys kind s => .ok (.showKeys kind (s.build settings))

/-- The statement as text, or why there is none. -/
def compile (settings : Settings) (s : StatementDraft) : Composed String := do
  let statement ← s.build settings
  statement.compile

end StatementDraft
end SeriesQuery
