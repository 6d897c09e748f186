/-
Reading TOML.

A text is a list of lines: assignments, and headers that say which table the assignments
behind them belong to.  Lists and tables may also stand inside values, at most 79 inside one
another.
-/
import SeriesQuery.Toml.Scalar
import SeriesQuery.Toml.Table

namespace SeriesQuery.Toml

open Text

/-! ### Values -/

/-- A list, behind its opening bracket.  A comma may follow the last item. -/
def listTail (item : Reader Document) : Reader Document := do
  let items ← Reader.separated (do layout; let d ← item; layout; return d) (Reader.char ',')
  if !items.isEmpty then
    let _ ← Reader.optional (Reader.char ',')
  layout
  Reader.char ']'
  return .list items

/-- A key, an equals sign and a value. -/
def assignment (value : Reader Document) : Reader Assignment := do
  let (parents, key) ← key
  Reader.char '='
  spaces
  let d ← value
  return ⟨parents, key, d⟩

/-- A table within a line, behind its opening brace. -/
def tableTail (item : Reader Document) : Reader Document := do
  let assignments ← Reader.separated (do let a ← assignment item; spaces; return a)
    (Reader.char ',')
  spaces
  Reader.char '\x7d'
  match assignAll assignments [] with
  | some es => return .table (membersOf es)
  | none => failure

/-- A value with at most so many lists and tables inside one another. -/
def value : Nat → Reader Document
  | 0 => scalar
  | depth + 1 => fun s =>
    match s with
    | '[' :: r => listTail (value depth) r
    | '\x7b' :: r => tableTail (value depth) r
    | s => scalar s

/-- How many lists and tables may stand inside one another. -/
def maxDepth : Nat := 79

/-! ### Lines -/

/-- The header of a table: its key, and whether it stands in double brackets. -/
structure Header where
  parents : List String
  key : String
  isElement : Bool

/-- What a line says. -/
inductive Line where
  | blank
  | header (h : Header)
  | assignment (a : Assignment)

/-- The header of one of several tables. -/
def elementHeader : Reader Line := do
  Reader.word ['[', '[']
  let (parents, key) ← key
  Reader.word [']', ']']
  return .header ⟨parents, key, true⟩

/-- The header of a table. -/
def tableHeader : Reader Line := do
  Reader.char '['
  let (parents, key) ← key
  Reader.char ']'
  return .header ⟨parents, key, false⟩

/-- What a line says, an empty one included. -/
def statement : Reader Line :=
  elementHeader
  <|> tableHeader
  <|> (do return .assignment (← assignment (value maxDepth)))
  <|> pure .blank

/-- A line and its end. -/
def line : Reader Line := do
  spaces
  let l ← statement
  lineEnd
  return l

/-! ### Documents -/

/-- A header and the assignments behind it. -/
structure Section where
  header : Header
  assignments : List Assignment

/-- The assignments before the first header, and the sections from it on. -/
def sections : List Line → List Assignment × List Section
  | [] => ([], [])
  | .blank :: ls => sections ls
  | .assignment a :: ls =>
    let (as, rest) := sections ls
    (a :: as, rest)
  | .header h :: ls =>
    let (as, rest) := sections ls
    ([], ⟨h, as⟩ :: rest)

/-- Adds the table of a section to a document. -/
def Section.addTo (root : Entries) (s : Section) : Option Entries :=
  let change :=
    if s.header.isElement then Entries.pushTable (assignAll s.assignments)
    else Entries.openTable (assignAll s.assignments)
  root.alterAt s.header.key change s.header.parents

/-- The document that lines make up. -/
def ofLines? (lines : List Line) : Option Document := do
  let (assignments, rest) := sections lines
  let root ← assignAll assignments []
  let root ← rest.foldlM Section.addTo root
  return .table (membersOf root)

/-- A mark that may stand before the first line. -/
def byteOrderMark : Char := '\ufeff'

/-- The document that a TOML text writes. -/
def document? (text : String) : Option Document := do
  let lines : Reader (List Line) := do
    let _ ← Reader.optional (Reader.char byteOrderMark)
    Reader.repeated line
  ofLines? (← Reader.whole lines text.toList)

end SeriesQuery.Toml
