/-
Drafts of terms.

A term is a field to select, or a term to group or sort by: a name, a number, or a table
for a function call, a time window, or a term with a direction.
-/
import SeriesQuery.Floating.Shortest
import SeriesQuery.Function
import SeriesQuery.Record
import SeriesQuery.Text.UpperCase

namespace SeriesQuery

/-- A term as a file gives it. -/
inductive TermDraft where
  | name (s : String)
  | int (n : Int)
  | float (x : Floating)
  | call (function : String) (args : List TermDraft) (aliasName : Option String)
  | time (interval : String) (offset : Option String)
  | asc (field : String)
  | desc (field : String)

namespace TermDraft

/-! ### Reading -/

/-- The key of a call's arguments. -/
def argsKey : String := "args"

/-- A call; its arguments are given as they have been read from each member that gives some. -/
def call? (r : Record) (args : Option (List (List TermDraft))) : Option TermDraft := do
  let layout : Layout := ⟨["function", argsKey, "alias"], false⟩
  let function ← (← layout.slot? r "function").required Document.text?
  let args ← match ← args with
    | [] => some []
    | [args] => some args
    | _ => none
  let aliasName ← (← layout.slot? r "alias").optional Document.text?
  return call function args aliasName

/-- A time window. -/
def time? (r : Record) : Option TermDraft := do
  let layout : Layout := ⟨["time", "offset"], false⟩
  let interval ← (← layout.slot? r "time").required Document.text?
  let offset ← (← layout.slot? r "offset").optional Document.text?
  return time interval offset

/-- A term with the direction that a key names. -/
def ordered? (r : Record) (direction : String) (term : String → TermDraft) : Option TermDraft := do
  let layout : Layout := ⟨[direction], false⟩
  return term (← (← layout.slot? r direction).required Document.text?)

mutual

/-- The term that a document gives: for a table the first of a call, a time window, and a
    term with a direction that it fits.  Other keys do not count. -/
def ofDocument? : Document → Option TermDraft
  | .text s => some (name s)
  | .integer n => some (if Document.isSigned64 n then int n else float (Format.binary64.ofInt n))
  | .float x => some (float x)
  | .table members =>
    let r := Record.keyed members
    call? r (argsOf? members) <|> time? r <|> ordered? r "asc" asc <|> ordered? r "desc" desc
  | .null | .bool _ | .list _ => none

/-- The terms that documents give, if every one gives one. -/
def allOf? : List Document → Option (List TermDraft)
  | [] => some []
  | d :: ds => do
    let t ← ofDocument? d
    let ts ← allOf? ds
    return t :: ts

/-- The terms that a list gives. -/
def listOf? : Document → Option (List TermDraft)
  | .list items => allOf? items
  | _ => none

/-- The arguments that each member for arguments gives, if every such member gives some. -/
def argsOf? : List (String × Document) → Option (List (List TermDraft))
  | [] => some []
  | (key, d) :: members =>
    if key = argsKey then do
      let args ← listOf? d
      let others ← argsOf? members
      return args :: others
    else argsOf? members

end

/-! ### Meaning -/

mutual

/-- The fragment that is meant.  Function names are written in upper case. -/
def fragment : TermDraft → Composed Fragment
  | name s => .ok (.name s)
  | int n => .ok (.raw (toString n))
  | float x => .ok (.raw (x.text .binary64))
  | call function args aliasName => do
    let args ← fragments args
    return .call (Text.upperCase function) args (aliasName.map Fragment.name)
  | time interval none => do
    let interval ← Duration.parse interval
    return (Call.time interval).fragment
  | time interval (some offset) => do
    let interval ← Duration.parse interval
    let offset ← Duration.parse offset
    return (Call.timeWithOffset interval offset).fragment
  | asc field => .ok (.ordered (.name field) .asc)
  | desc field => .ok (.ordered (.name field) .desc)

/-- The fragments that are meant, or the first failure. -/
def fragments : List TermDraft → Composed (List Fragment)
  | [] => .ok []
  | t :: ts => do
    let f ← t.fragment
    let fs ← fragments ts
    return f :: fs

end

end TermDraft
end SeriesQuery
