/-
Records in documents.

A record has named fields.  A table gives them by key, in any order; a list gives them by
place.  A layout lists the fields in their places and says whether a key that is no field
is an error.  A key that is written twice is an error for the fields that a layout knows.
-/
import SeriesQuery.Document.Basic

namespace SeriesQuery

/-- The fields of a record as a document gives them. -/
inductive Record where
  | keyed (members : List (String × Document))
  | placed (items : List Document)

/-- The record that a document is, if it is one. -/
def Document.record? : Document → Option Record
  | table members => some (.keyed members)
  | list items => some (.placed items)
  | _ => none

/-- The names of a record's fields in the order of their places. -/
structure Layout where
  fields : List String
  /-- Whether a key that is no field is an error. -/
  isClosed : Bool

/-- What a record says about a field. -/
inductive Slot where
  /-- The table has no such key. -/
  | missing
  /-- The list ends before the field's place. -/
  | beyond
  | given (d : Document)

namespace Slot

variable {α : Type}

/-- A field that has to be given. -/
def required (read : Document → Option α) : Slot → Option α
  | given d => read d
  | missing | beyond => none

/-- A field that a table may leave out and that may be null; a list has to reach its place. -/
def optional (read : Document → Option α) : Slot → Option (Option α)
  | given d => d.nullable? read
  | missing => some none
  | beyond => none

/-- A field that takes a default where it is not given. -/
def orDefault (default : α) (read : Document → Option α) : Slot → Option α
  | given d => read d
  | missing | beyond => some default

/-- A field that may be left out anywhere and may be null. -/
def lenient (read : Document → Option α) : Slot → Option (Option α) :=
  orDefault none (Document.nullable? read)

end Slot

namespace Layout

/-- Whether a record has no field but those of the layout. -/
def fits (l : Layout) : Record → Bool
  | .keyed members => !l.isClosed || members.all fun (key, _) => l.fields.contains key
  | .placed items => items.length ≤ l.fields.length

/-- What a record says about a field, unless it says it twice. -/
def slot? (l : Layout) (r : Record) (field : String) : Option Slot :=
  match r with
  | .keyed members =>
    match members.filter fun (key, _) => key == field with
    | [] => some .missing
    | [(_, d)] => some (.given d)
    | _ => none
  | .placed items =>
    match items[l.fields.idxOf field]? with
    | some d => some (.given d)
    | none => some .beyond

end Layout
end SeriesQuery
