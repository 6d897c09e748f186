/-
Command-line arguments.

Options stand before the command, which knows those that hold for every command, or behind
it.  A value follows its option as the next argument, behind an equals sign, or directly
behind a short option.  An option is given at most once on either side of the command; of
two settings files the one behind the command counts.  Two hyphens end the options.
-/
import SeriesQuery.Settings

namespace SeriesQuery

/-- What the program is asked to do. -/
inductive Command where
  /-- Compose the statements of a file. -/
  | build (file : String) (format : Option OutputFormat)
  /-- Normalise duration tokens. -/
  | duration (tokens : List String)
  deriving DecidableEq, Repr

/-- A command and the options that hold for every command. -/
structure Invocation where
  settingsPath : Option String
  isVerbose : Bool
  command : Command
  deriving DecidableEq, Repr

namespace Invocation

/-- An option that takes a value. -/
inductive ValueOption where
  | settings
  | format
  deriving DecidableEq, Repr

/-- What an argument is. -/
inductive Item where
  | operand (s : String)
  | verbose
  | value (option : ValueOption) (s : String)
  /-- An option whose value is the next argument. -/
  | awaiting (option : ValueOption)
  deriving DecidableEq, Repr

/-- A long option, without its hyphens. -/
def longOption? (takesFormat : Bool) (s : List Char) : Option Item :=
  let name := s.takeWhile (· != '=')
  let option? :=
    if name = "config".toList then some ValueOption.settings
    else if takesFormat ∧ name = "format".toList then some ValueOption.format
    else none
  match option?, s.dropWhile (· != '=') with
  | some option, [] => some (.awaiting option)
  | some option, _ :: v => some (.value option (String.ofList v))
  | none, [] => if name = "verbose".toList then some .verbose else none
  | none, _ => none

/-- Short options behind one hyphen. -/
def shortOptions? (takesFormat : Bool) : List Char → Option (List Item)
  | [] => some []
  | 'v' :: r => (shortOptions? takesFormat r).map (.verbose :: ·)
  | 'f' :: r =>
    if takesFormat then
      match r with
      | [] => some [.awaiting .format]
      | '=' :: v => some [.value .format (String.ofList v)]
      | v => some [.value .format (String.ofList v)]
    else none
  | _ :: _ => none

/-- What an argument says, if it is no unknown option. -/
def items? (takesFormat : Bool) (arg : String) : Option (List Item) :=
  match arg.toList with
  | '-' :: '-' :: s => (longOption? takesFormat s).map ([·])
  | '-' :: c :: s => shortOptions? takesFormat (c :: s)
  | _ => some [.operand arg]

/-- Whether an argument cannot be the value of the option before it. -/
def looksLikeOption (arg : String) : Bool :=
  arg.startsWith "-" && arg != "-"

/-- What has been given on one side of the command. -/
structure Given where
  settingsPath : Option String
  isVerbose : Bool
  format : Option OutputFormat
  operands : List String

/-- Nothing given yet. -/
def Given.nothing : Given :=
  ⟨none, false, none, []⟩

/-- Adds the value of an option, which must be its first. -/
def Given.addValue (g : Given) (s : String) : ValueOption → Option Given
  | .settings =>
    if g.settingsPath.isSome || s.isEmpty then none else some { g with settingsPath := some s }
  | .format =>
    match g.format, OutputFormat.ofName? s with
    | none, some format => some { g with format := some format }
    | _, _ => none

/-- Adds what an argument says, up to an option that awaits its value. -/
def Given.add (g : Given) : List Item → Option (Given × Option ValueOption)
  | [] => some (g, none)
  | .operand s :: items => Given.add { g with operands := g.operands ++ [s] } items
  | .verbose :: items => if g.isVerbose then none else Given.add { g with isVerbose := true } items
  | .value option s :: items => do Given.add (← g.addValue s option) items
  | .awaiting option :: _ => some (g, some option)

/-- Reads the options before the command; gives them, and the command and what follows it. -/
def beforeCommand (g : Given) : List String → Option (Given × List String)
  | [] => none
  | "--" :: _ => none
  | arg :: rest => do
    if looksLikeOption arg then
      let (g, awaited) ← g.add (← items? false arg)
      match awaited with
      | none => beforeCommand g rest
      | some option =>
        match rest with
        | [] => none
        | v :: rest =>
          if looksLikeOption v then none else beforeCommand (← g.addValue v option) rest
    else return (g, arg :: rest)

/-- Reads what follows the command. -/
def behindCommand (takesFormat : Bool) (g : Given) : List String → Option Given
  | [] => some g
  | "--" :: rest => some { g with operands := g.operands ++ rest }
  | arg :: rest => do
    let (g, awaited) ← g.add (← items? takesFormat arg)
    match awaited with
    | none => behindCommand takesFormat g rest
    | some option =>
      match rest with
      | [] => none
      | v :: rest =>
        if looksLikeOption v then none
        else behindCommand takesFormat (← g.addValue v option) rest

/-- The settings file that counts: the one named behind the command, then the one named before
    it, then the environment's.  A side that names none looks at the environment, which must
    not name an empty path then. -/
def settingsPath? (environment : Option String) (before behind : Given) :
    Option (Option String) :=
  if environment = some "" ∧ (before.settingsPath.isNone ∨ behind.settingsPath.isNone) then none
  else some (behind.settingsPath <|> before.settingsPath <|> environment)

/-- The command with a name, from what has been given behind it. -/
def command? (name : String) (behind : Given) : Option Command :=
  match name, behind.operands with
  | "build", [file] => if file.isEmpty then none else some (.build file behind.format)
  | "duration", token :: tokens => some (.duration (token :: tokens))
  | _, _ => none

/-- The invocation that arguments make, with a settings file named by the environment. -/
def ofArguments? (environment : Option String) (args : List String) : Option Invocation := do
  let (before, rest) ← beforeCommand .nothing args
  match rest with
  | [] => none
  | name :: rest =>
    let behind ← behindCommand (name == "build") .nothing rest
    return ⟨← settingsPath? environment before behind, before.isVerbose || behind.isVerbose,
      ← command? name behind⟩

end Invocation
end SeriesQuery
