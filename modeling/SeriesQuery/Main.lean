/-
The program.

Reads the files that the command needs, then prints what the command gives.
-/
import SeriesQuery.CommandLine.Run

namespace SeriesQuery.Program

/-- Reads a file of the operating system. -/
def readPath (path : String) : IO (Except FileError ByteArray) := do
  try
    return .ok (← IO.FS.readBinFile path)
  catch
    | .noFileOrDirectory .. => return .error .missing
    | .inappropriateType _ _ details =>
      return .error (if details == "Is a directory" then .directory else .insideFile)
    | _ => return .error .missing

/-- Reads the paths once; every other path is missing. -/
def readPaths (paths : List String) : IO FileSource := do
  let contents ← paths.mapM fun path => return (path, ← readPath path)
  return fun path => (contents.lookup path).getD (.error .missing)

/-- The usual path of the settings: below the user's directory for settings. -/
def usualPath : IO (Option String) := do
  match ← IO.getEnv "XDG_CONFIG_HOME" with
  | some directory =>
    if directory.startsWith "/" then return some (directory ++ "/influxql/config.toml")
  | none => pure ()
  return (← IO.getEnv "HOME").map (· ++ "/.config/influxql/config.toml")

/-- Runs the program; gives its exit code. -/
def run (args : List String) : IO UInt32 := do
  let environment ← IO.getEnv "INFLUXQL_CONFIG"
  let usual ← usualPath
  let paths := (Invocation.ofArguments? environment args).elim [] (·.paths usual)
  let outcome := runArguments (← readPaths paths) usual environment args
  IO.print outcome.output
  if let some message := outcome.message? then IO.eprintln ("Error: " ++ message)
  return outcome.exitCode.toUInt32

end SeriesQuery.Program

/-- Runs the program on the arguments it is started with. -/
def main (args : List String) : IO UInt32 :=
  SeriesQuery.Program.run args
