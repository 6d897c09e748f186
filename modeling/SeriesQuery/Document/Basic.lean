/-
Structured documents.

What a JSON or TOML text says, apart from its notation: scalars, lists and tables.  A table
keeps its members in the order they are written, a key that is written twice included.
-/
import SeriesQuery.Floating.Format

namespace SeriesQuery

/-- A document or a part of one. -/
inductive Document where
  | null
  | bool (b : Bool)
  | integer (n : Int)
  | float (x : Floating)
  | text (s : String)
  | list (items : List Document)
  | table (members : List (String × Document))

namespace Document

/-- The text, if the document is one. -/
def text? : Document → Option String
  | text s => some s
  | _ => none

/-- The truth value, if the document is one. -/
def bool? : Document → Option Bool
  | bool b => some b
  | _ => none

/-- The natural number below a bound, if the document is one. -/
def natBelow? (bound : Nat) : Document → Option Nat
  | integer n => if 0 ≤ n ∧ n < bound then some n.toNat else none
  | _ => none

/-- Whether 64 bits hold the number, one of them for the sign. -/
def isSigned64 (n : Int) : Bool :=
  -0x8000_0000_0000_0000 ≤ n && n < 0x8000_0000_0000_0000

/-- The items of a list as `read` reads them, if it reads every one. -/
def listOf? {α : Type} (read : Document → Option α) : Document → Option (List α)
  | list items => items.mapM read
  | _ => none

/-- The document as `read` reads it, or nothing for a null. -/
def nullable? {α : Type} (read : Document → Option α) : Document → Option (Option α)
  | null => some none
  | d => (read d).map some

/-- The name of a choice: a text, or the only key of a table whose member says nothing. -/
def choice? (saysNothing : Document → Bool) : Document → Option String
  | text s => some s
  | table [(s, d)] => if saysNothing d then some s else none
  | _ => none

end Document
end SeriesQuery
