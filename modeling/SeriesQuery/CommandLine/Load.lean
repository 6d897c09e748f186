/-
Loading settings and batches.
-/
import SeriesQuery.Draft.Batch
import SeriesQuery.Files
import SeriesQuery.Json.Reader
import SeriesQuery.Toml.Reader

namespace SeriesQuery

/-- Reads a text as a document and the document as what it should describe. -/
def describe {α : Type} (document? : String → Option Document)
    (describes? : Document → Option α) (text : String) : Composed α :=
  match document? text >>= describes? with
  | some a => .ok a
  | none => .error .malformed

namespace Settings

/-- The settings that a TOML text gives. -/
def ofToml (text : String) : Composed Settings :=
  describe Toml.document? ofDocument? text

/-- The settings of a file that is named.  Where none is, those of the usual file, which may
    be missing. -/
def load (source : FileSource) (named usual : Option String) : Composed Settings :=
  match named, usual with
  | some path, _ => source.readText path >>= ofToml
  | none, none => .ok empty
  | none, some path =>
    match source path with
    | .error .missing | .error .insideFile => .ok empty
    | _ => source.readText path >>= ofToml

end Settings

namespace Batch

/-- The batch that a JSON text gives. -/
def ofJson (text : String) : Composed Batch :=
  describe Json.document? ofDocument? text

/-- The batch that a TOML text gives. -/
def ofToml (text : String) : Composed Batch :=
  describe Toml.document? ofDocument? text

/-- The batch at a path: JSON if the name says so, else TOML. -/
def load (source : FileSource) (path : String) : Composed Batch := do
  let text ← source.readText path
  if extension? path = some "json" then ofJson text else ofToml text

end Batch
end SeriesQuery
