/-
Drafts of fill options.

A file gives a number, or the text of an option.
-/
import SeriesQuery.Document.Basic
import SeriesQuery.Fill
import SeriesQuery.Floating.Shortest

namespace SeriesQuery

/-- A fill option as a file gives it. -/
inductive FillDraft where
  | int (n : Int)
  | float (x : Floating)
  | text (s : String)

namespace FillDraft

/-- The fill option that a document gives. -/
def ofDocument? : Document → Option FillDraft
  | .integer n => some (if Document.isSigned64 n then int n else float (Format.binary64.ofInt n))
  | .float x => some (float x)
  | .text s => some (text s)
  | _ => none

/-- The option that is meant.  Whether a number is finite is looked at when the statement is
    composed. -/
def fill : FillDraft → Composed Fill
  | int n => .ok (.number (toString n))
  | float x => .ok (.number (x.text .binary64))
  | text s => Fill.ofText? s

end FillDraft
end SeriesQuery
