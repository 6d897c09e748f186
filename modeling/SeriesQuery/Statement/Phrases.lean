/-
Phrases of a statement.

A statement is a list of phrases with one space between each two: a keyword with what
belongs to it, or a text of its own.  A phrase that has nothing to say is not in the list, so
it leaves no gap.
-/

namespace SeriesQuery

/-- The phrases of a statement, in order. -/
abbrev Phrases := List String

namespace Phrases

/-- A text of its own, left out when it is empty. -/
def bare (text : String) : Phrases :=
  if text.isEmpty then [] else [text]

/-- A keyword and a text; no phrase without a text. -/
def clause (keyword : String) : Option String → Phrases
  | some text => [keyword ++ " " ++ text]
  | none => []

/-- A keyword and a number; no phrase without a number. -/
def numberClause (keyword : String) (n : Option Nat) : Phrases :=
  clause keyword (n.map toString)

/-- A keyword and a list of texts; no phrase without a text in the list. -/
def listClause (keyword separator : String) (items : List String) : Phrases :=
  if items.isEmpty then [] else [keyword ++ " " ++ separator.intercalate items]

/-- The statement that the phrases make up. -/
def text (phrases : Phrases) : String :=
  " ".intercalate phrases

end Phrases

/-- A measurement with the retention policy that qualifies it, if any. -/
def qualifiedName (policy : Option String) (measurement : String) : String :=
  match policy with
  | some policy => policy ++ "." ++ measurement
  | none => measurement

end SeriesQuery
