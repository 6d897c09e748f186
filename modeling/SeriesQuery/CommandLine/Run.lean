/-
What a command prints.

`build` prints all statements of a file or none.  `duration` prints a line for each token
up to the first that is none.
-/
import SeriesQuery.CommandLine.Arguments
import SeriesQuery.CommandLine.Load
import SeriesQuery.Json.Printer

namespace SeriesQuery

/-- How a run of the program ends. -/
inductive Outcome where
  /-- The arguments make no command. -/
  | usage
  /-- What has been printed by the time of an error, and the error in words. -/
  | failure (output message : String)
  | success (output : String)
  deriving DecidableEq, Repr

namespace Outcome

/-- The exit code of the run. -/
def exitCode : Outcome → Nat
  | usage => 2
  | failure .. => 1
  | success _ => 0

/-- What the run prints. -/
def output : Outcome → String
  | usage => ""
  | failure output _ => output
  | success output => output

/-- The error in words, if the run ends in one. -/
def message? : Outcome → Option String
  | failure _ message => some message
  | usage | success _ => none

end Outcome

/-- The error with its cause, which for a file that cannot be read says the same again. -/
def ComposeError.fullMessage : ComposeError → String
  | unreadable reason => (unreadable reason).message ++ ": " ++ reason.message
  | e => e.message

/-! ### Composing a file -/

/-- The statements as they are printed in a format. -/
def OutputFormat.print : OutputFormat → List String → String
  | text, statements => String.join (statements.map (· ++ "\n"))
  | json, statements => Json.textList statements ++ "\n"

/-- Composes the statements of a file. -/
def build (source : FileSource) (named usual : Option String) (file : String)
    (format : Option OutputFormat) : Outcome :=
  match Settings.load source named usual with
  | .error e => .failure "" ("failed to load config: " ++ e.fullMessage)
  | .ok settings =>
    match Batch.load source file with
    | .error e => .failure "" ("failed to read " ++ file ++ ": " ++ e.fullMessage)
    | .ok f =>
      match f.compile settings with
      | .error e => .failure "" e.fullMessage
      | .ok statements => .success ((format.getD settings.format).print statements)

/-! ### Normalising durations -/

/-- The text with blanks behind it up to a width. -/
def padEnd (width : Nat) (s : String) : String :=
  s ++ String.ofList (List.replicate (width - s.length) ' ')

/-- The line that a token and its duration are printed on. -/
def durationLine (token : String) (d : Duration) : String :=
  padEnd 12 token ++ " → " ++ d.token ++ "\n"

/-- Prints a line for each token, behind the lines printed before. -/
def normalise (printed : String) : List String → Outcome
  | [] => .success printed
  | token :: tokens =>
    match Duration.parse token with
    | .ok d => normalise (printed ++ durationLine token d) tokens
    | .error e => .failure printed e.message

/-! ### The program -/

/-- The paths that a command reads. -/
def Invocation.paths (usual : Option String) (i : Invocation) : List String :=
  match i.command with
  | .build file _ => (i.settingsPath <|> usual).toList ++ [file]
  | .duration _ => []

/-- Runs a command. -/
def Invocation.run (source : FileSource) (usual : Option String) (i : Invocation) : Outcome :=
  match i.command with
  | .build file format => build source i.settingsPath usual file format
  | .duration tokens => normalise "" tokens

/-- Runs the program on its arguments. -/
def runArguments (source : FileSource) (usual environment : Option String)
    (args : List String) : Outcome :=
  match Invocation.ofArguments? environment args with
  | some i => i.run source usual
  | none => .usage

end SeriesQuery
