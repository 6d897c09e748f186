/-
How TOML tables grow.

A table comes to be by a header of its own, as a parent in another table's header, or as a
parent in a dotted key.  A header may complete a table that so far was only a parent in
headers, but no other.  A dotted key may add to tables that dotted keys made, and may pass
through a table that was only a parent in headers, but puts nothing into it directly.
-/
import SeriesQuery.Document.Basic

namespace SeriesQuery.Toml

/-- How a table came to be. -/
inductive Origin where
  /-- By its own header. -/
  | header
  /-- As a parent in the header of another table. -/
  | parent
  /-- As a parent in a dotted key. -/
  | dotted
  deriving DecidableEq, Repr

/-- What stands under a key. -/
inductive Entry where
  | value (d : Document)
  | table (origin : Origin) (entries : List (String × Entry))
  /-- The tables of one header in double brackets, in order. -/
  | tables (elements : List (List (String × Entry)))

/-- What stands under each key of a table. -/
abbrev Entries := List (String × Entry)

namespace Entries

/-- Changes what stands under a key. -/
def alter (key : String) (change : Option Entry → Option Entry) : Entries → Option Entries
  | [] => do return [(key, ← change none)]
  | (k, e) :: es =>
    if k = key then do return (k, ← change (some e)) :: es
    else do return (k, e) :: (← alter key change es)

/-- Changes the last of a list of tables. -/
def alterLast (change : Entries → Option Entries) (elements : List Entries) :
    Option (List Entries) := do
  let last ← elements.getLast?
  return elements.dropLast ++ [← change last]

/-- Puts a value under a key that is new, below the parents of a dotted key. -/
def assign (key : String) (d : Document) : List String → Entries → Option Entries
  | [], es =>
    es.alter key fun
      | none => some (.value d)
      | some _ => none
  | p :: ps, es =>
    es.alter p fun
      | none => (assign key d ps []).map (.table .dotted)
      | some (.table .dotted sub) => (assign key d ps sub).map (.table .dotted)
      | some (.table .parent sub) =>
        if ps.isEmpty then none else (assign key d ps sub).map (.table .parent)
      | some (.tables elements) =>
        if ps.isEmpty then none else (alterLast (assign key d ps) elements).map .tables
      | some (.table .header _) | some (.value _) => none

/-- Changes what stands under the last part of a header, below its parents. -/
def alterAt (key : String) (change : Option Entry → Option Entry) :
    List String → Entries → Option Entries
  | [], es => es.alter key change
  | p :: ps, es =>
    es.alter p fun
      | none => (alterAt key change ps []).map (.table .parent)
      | some (.table origin sub) => (alterAt key change ps sub).map (.table origin)
      | some (.tables elements) => (alterLast (alterAt key change ps) elements).map .tables
      | some (.value _) => none

/-- Completes the table of a header. -/
def openTable (fill : Entries → Option Entries) : Option Entry → Option Entry
  | none => (fill []).map (.table .header)
  | some (.table .parent sub) => (fill sub).map (.table .header)
  | some _ => none

/-- Adds a table to those of a header in double brackets. -/
def pushTable (fill : Entries → Option Entries) : Option Entry → Option Entry
  | none => do return .tables [← fill []]
  | some (.tables elements) => do return .tables (elements ++ [← fill []])
  | some _ => none

end Entries

mutual

/-- The document that an entry is. -/
def Entry.document : Entry → Document
  | .value d => d
  | .table _ entries => .table (membersOf entries)
  | .tables elements => .list (tablesOf elements)

/-- The members of the table that entries make up. -/
def membersOf : List (String × Entry) → List (String × Document)
  | [] => []
  | (key, e) :: es => (key, e.document) :: membersOf es

/-- The tables that lists of entries make up. -/
def tablesOf : List (List (String × Entry)) → List Document
  | [] => []
  | es :: rest => .table (membersOf es) :: tablesOf rest

end

/-- A value and the key it is put under. -/
structure Assignment where
  parents : List String
  key : String
  value : Document

/-- Adds assignments to a table, one after the other. -/
def assignAll (assignments : List Assignment) (es : Entries) : Option Entries :=
  assignments.foldlM (fun es a => es.assign a.key a.value a.parents) es

end SeriesQuery.Toml
