/-
Date-times in documents.

A TOML date-time is a table of its own: its only member is the date-time's text, under a
reserved key.
-/
import SeriesQuery.Document.Basic
import SeriesQuery.Time.Moment

namespace SeriesQuery

/-- The key under which a document gives the text of a TOML date-time. -/
def Moment.reservedKey : String :=
  "$__toml_private_datetime"

/-- The document that a TOML date-time is. -/
def Moment.document (m : Moment) : Document :=
  .table [(reservedKey, .text m.text)]

/-- The date-time that a document is, if it is one. -/
def Moment.ofDocument? : Document → Option Moment
  | .table [(key, .text s)] => if key = reservedKey then ofText? s else none
  | _ => none

end SeriesQuery
