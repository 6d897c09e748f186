/-
Files.

What a program sees of the file system is what reading a path gives: bytes, or a reason why
there are none.  A tree of files gives that by walking a path part by part.
-/
import SeriesQuery.Error

namespace SeriesQuery

/-- What reading a path gives. -/
abbrev FileSource := String → Except FileError ByteArray

/-- The text of a file. -/
def FileSource.readText (source : FileSource) (path : String) : Composed String :=
  match source path with
  | .error reason => .error (.unreadable reason)
  | .ok bytes =>
    match String.fromUTF8? bytes with
    | some text => .ok text
    | none => .error (.unreadable .notText)

/-! ### Paths -/

/-- The parts of a path between its slashes. -/
def pathParts (path : String) : List String :=
  (path.toList.splitOn '/').map String.ofList

/-- The name that a path ends in, if it ends in one. -/
def fileName? (path : String) : Option String :=
  match ((pathParts path).filter fun part => part != "" && part != ".").getLast? with
  | some ".." => none
  | name => name

/-- What stands behind the last dot of a file's name, unless the name starts with that dot. -/
def extension? (path : String) : Option String := do
  let name ← fileName? path
  let parts := name.toList.splitOn '.'
  match parts.dropLast, parts.getLast? with
  | [], _ | [[]], _ => none
  | _, last => last.map String.ofList

/-! ### Trees of files -/

/-- The files below a directory, each with its path. -/
structure FileTree where
  files : List (List String × ByteArray)

namespace FileTree

/-- The tree of files with the paths given. -/
def ofList (files : List (String × ByteArray)) : FileTree :=
  ⟨files.map fun (path, bytes) =>
    ((pathParts path).filter fun part => part != "" && part != ".", bytes)⟩

/-- What a place in the tree is. -/
inductive Place where
  | nothing
  | directory
  | file (bytes : ByteArray)

/-- What is at a place. -/
def place (t : FileTree) (here : List String) : Place :=
  match t.files.lookup here with
  | some bytes => .file bytes
  | none =>
    if here.isEmpty || t.files.any fun (path, _) => here.isPrefixOf path then .directory
    else .nothing

/-- Where the parts of a path lead from a place; every place on the way is a directory. -/
def walk (t : FileTree) (here : List String) : List String → Except FileError (List String)
  | [] => .ok here
  | part :: rest =>
    match t.place here with
    | .nothing => .error .missing
    | .file _ => .error .insideFile
    | .directory =>
      if part = "" ∨ part = "." then t.walk here rest
      else if part = ".." then
        if here.isEmpty then .error .missing else t.walk here.dropLast rest
      else t.walk (here ++ [part]) rest

/-- Reading a path relative to the top of the tree. -/
def source (t : FileTree) : FileSource := fun path =>
  if path.startsWith "/" || path.isEmpty then .error .missing
  else
    match t.walk [] (pathParts path) with
    | .error reason => .error reason
    | .ok here =>
      match t.place here with
      | .nothing => .error .missing
      | .directory => .error .directory
      | .file bytes => .ok bytes

end FileTree
end SeriesQuery
