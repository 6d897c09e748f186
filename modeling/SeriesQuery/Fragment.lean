/-
Fragments of statements.

A fragment is any piece that stands in a statement: a name, a number, a call, a term to
sort by, a condition, or a whole statement, nested to any depth.  It compiles to text, or
to the first failure among its parts in the order in which they are compiled.
-/
import SeriesQuery.Statement.Basic

namespace SeriesQuery

/-- A direction to sort in. -/
inductive SortDirection where
  | asc
  | desc
  deriving DecidableEq, Repr

/-- The direction as a keyword. -/
def SortDirection.keyword : SortDirection → String
  | asc => "ASC"
  | desc => "DESC"

/-- A piece of a statement. -/
inductive Fragment where
  /-- The name of a measurement, field, tag or other object. -/
  | name (s : String)
  /-- A time window. -/
  | window (interval : Duration)
  /-- A text that is written as it stands. -/
  | raw (s : String)
  /-- A text that is written between double quotes as it stands. -/
  | quoted (s : String)
  | conjunction (k : Conjunction)
  | value (v : Value)
  | condition (c : Condition)
  | call (function : String) (args : List Fragment) (aliasName : Option Fragment)
  | ordered (term : Fragment) (direction : SortDirection)
  | statement (s : Statement Fragment)

namespace Fragment

/-- A call of the function, its arguments as they stand in it. -/
def callText (function : String) (args : List String) (aliasName : Option String) : String :=
  function ++ "(" ++ ", ".intercalate args ++ ")" ++
    match aliasName with
    | some aliasName => " AS " ++ aliasName
    | none => ""

/-- The call of `time` that a time window is written as. -/
def windowText (interval : Duration) : String :=
  callText "time" [interval.token] none

mutual

/-- The fragment as it stands in a statement, or its first failure. -/
def compile : Fragment → Composed String
  | name s => .ok (Identifier.text s)
  | window interval => .ok (windowText interval)
  | raw s => .ok s
  | quoted s => .ok ("\"" ++ s ++ "\"")
  | conjunction k => .ok k.keyword
  | value v => .ok v.literal
  | condition c => c.compile
  | call function args aliasName => do
    let args ← compileAll args
    let aliasName ← compileOption aliasName
    return callText function args aliasName
  | ordered term direction => do
    let term ← term.compile
    return term ++ " " ++ direction.keyword
  | statement s => compileStatement s

/-- The fragments as they stand in a statement, or the first failure of the first that fails. -/
def compileAll : List Fragment → Composed (List String)
  | [] => .ok []
  | f :: fs => do
    let text ← f.compile
    let texts ← compileAll fs
    return text :: texts

/-- A fragment that may be absent, as it stands in a statement. -/
def compileOption : Option Fragment → Composed (Option String)
  | none => .ok none
  | some f => do
    let text ← f.compile
    return some text

/-- The statement as text.  It fails with the first failure among its parts. -/
def compileStatement : Statement Fragment → Composed String
  | .select s => compileSelect s
  | .delete s => compileDelete s
  | .object action object => do
    let object ← object.compile
    return objectText action.keywords object none
  | .retentionPolicy p => compileRetentionPolicy p
  | .dropRetentionPolicy policy database => do
    let policy ← policy.compile
    let database ← database.compile
    return objectText "DROP RETENTION POLICY" policy (some database)
  | .list what database => do
    let database ← compileOption database
    return showText what.keywords database none
  | .showDatabases => .ok (showText "DATABASES" none none)
  | .showKeys kind source => compileKeys kind source

/-- The SELECT as text.  Without a measurement it fails before any part is looked at. -/
def compileSelect : Select Fragment → Composed String
  | ⟨_, none, _, _, _, _, _, _, _, _, _⟩ => .error (.missingMeasurement .select)
  | ⟨fields, some measurement, retentionPolicy, conditions, groupBy, orderBy, limit, offset,
      seriesLimit, seriesOffset, fill⟩ => do
    let measurement ← measurement.compile
    let retentionPolicy ← compileOption retentionPolicy
    let fields ← compileAll fields
    let conditions ← conditions.compile
    let groupBy ← compileAll groupBy
    let orderBy ← compileAll orderBy
    let fill ← fill.mapM Fill.compile
    return Select.Clauses.text ⟨fields, measurement, retentionPolicy, conditions, groupBy,
      orderBy, limit, offset, seriesLimit, seriesOffset, fill⟩

/-- The DELETE as text.  Without a measurement it fails before any part is looked at. -/
def compileDelete : Delete Fragment → Composed String
  | ⟨none, _⟩ => .error (.missingMeasurement .delete)
  | ⟨some measurement, conditions⟩ => do
    let measurement ← measurement.compile
    let conditions ← conditions.compile
    return Delete.text measurement conditions

/-- The CREATE or ALTER RETENTION POLICY as text. -/
def compileRetentionPolicy : RetentionPolicy Fragment → Composed String
  | ⟨policy, database, duration, replication, shardDuration, isDefault, isAlter⟩ => do
    let policy ← policy.compile
    let database ← database.compile
    return RetentionPolicy.text ⟨policy, database, duration, replication, shardDuration,
      isDefault, isAlter⟩

/-- The SHOW TAG KEYS or SHOW FIELD KEYS as text.  A retention policy without a measurement
    fails only when every part has compiled. -/
def compileKeys (kind : KeyKind) : KeysScope Fragment → Composed String
  | ⟨database, measurement, retentionPolicy⟩ => do
    let database ← compileOption database
    let measurement ← compileOption measurement
    let retentionPolicy ← compileOption retentionPolicy
    match measurement, retentionPolicy with
    | none, some _ => .error .retentionPolicyWithoutMeasurement
    | _, _ =>
      let source := measurement.map (qualifiedName retentionPolicy)
      return showText kind.keywords database source

end

end Fragment

/-- The statement as text, or its first failure. -/
def Statement.compile (s : Statement Fragment) : Composed String :=
  Fragment.compileStatement s

end SeriesQuery
