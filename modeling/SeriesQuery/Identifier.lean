/-
Quoted identifiers.

An identifier is written between double quotes, with a backslash before each quote and
each backslash of the name.  Reading takes a backslash together with the character after
it, and stops at the first quote that stands alone.
-/

namespace SeriesQuery.Identifier

/-- The characters of a name as they stand between the quotes. -/
def escape : List Char → List Char
  | [] => []
  | c :: r => if c = '"' ∨ c = '\\' then '\\' :: c :: escape r else c :: escape r

/-- The name as a quoted identifier. -/
def quote (name : String) : String :=
  "\"" ++ String.ofList (escape name.toList) ++ "\""

/-- The name and the rest of the text, when reading starts just behind the opening quote. -/
def unescape? : List Char → Option (List Char × List Char)
  | [] => none
  | '"' :: r => some ([], r)
  | ['\\'] => none
  | '\\' :: c :: r => (unescape? r).map fun (name, rest) => (c :: name, rest)
  | c :: r => (unescape? r).map fun (name, rest) => (c :: name, rest)

theorem unescape?_escape_append (s r : List Char) :
    unescape? (escape s ++ '"' :: r) = some (s, r) := by
  induction s with
  | nil => rfl
  | cons c s ih =>
    by_cases h : c = '"' ∨ c = '\\'
    · simp [escape, h, unescape?, ih]
    · obtain ⟨hq, hb⟩ := not_or.1 h
      simp [escape, hq, hb, unescape?, ih]

/-- Takes a quoted identifier off the front of a text. -/
def read? : List Char → Option (List Char × List Char)
  | '"' :: r => unescape? r
  | _ => none

/-- Whether a name is written as it stands: the wildcard, and whatever holds a quote or a
    dot, which is taken to be quoted or qualified already. -/
def isVerbatim (name : String) : Bool :=
  name.toList.contains '"' || name.toList.contains '.' || name == "*"

/-- The name as it stands in a statement. -/
def text (name : String) : String :=
  if isVerbatim name then name else quote name

end SeriesQuery.Identifier
