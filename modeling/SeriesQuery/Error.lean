/-
What can go wrong.

Each way in which a statement can fail to be read, built or composed is one constructor
with the facts it reports; `ComposeError.message` is the only place that words them.
-/
import SeriesQuery.Text.Quoted

namespace SeriesQuery

open Text

/-- The statements that work on one measurement. -/
inductive MeasurementStatement where
  | select
  | delete
  deriving DecidableEq, Repr

/-- The keyword that the statement opens with. -/
def MeasurementStatement.keyword : MeasurementStatement → String
  | select => "SELECT"
  | delete => "DELETE"

/-- Why a file could not be read as text. -/
inductive FileError where
  | missing
  | insideFile
  | directory
  | notText
  deriving DecidableEq, Repr

/-- The failure in the operating system's words. -/
def FileError.message : FileError → String
  | missing => "No such file or directory (os error 2)"
  | insideFile => "Not a directory (os error 20)"
  | directory => "Is a directory (os error 21)"
  | notText => "stream did not contain valid UTF-8"

/-- Why a date-time is no timestamp. -/
inductive MomentError where
  | incomplete
  | outOfRange
  deriving DecidableEq, Repr

/-- The reason in words. -/
def MomentError.message : MomentError → String
  | incomplete => "premature end of input"
  | outOfRange => "input is out of range"

/-- Why a statement could not be read, built or composed. -/
inductive ComposeError where
  /-- A condition has a number of places other than its number of values. -/
  | placeholderMismatch (placeholders values : Nat)
  /-- A shorthand condition has several values. -/
  | expectedSingleValue
  /-- A shorthand condition has three or more words. -/
  | unsupportedExpression (expression : String)
  /-- A shorthand condition has no word. -/
  | emptyCondition
  /-- The statement names no measurement. -/
  | missingMeasurement (statement : MeasurementStatement)
  /-- A retention policy has no measurement to qualify. -/
  | retentionPolicyWithoutMeasurement
  /-- The text is no duration token. -/
  | invalidDuration (token : String)
  /-- The text is no fill option. -/
  | invalidFill (option : String)
  /-- Neither the statement nor the settings name a database. -/
  | noDatabase
  /-- A date-time lacks a part of a timestamp, or has one that no clock shows. -/
  | invalidMoment (moment : String) (reason : MomentError)
  /-- A file's text does not describe what it should. -/
  | malformed
  /-- A file cannot be read. -/
  | unreadable (reason : FileError)
  deriving DecidableEq, Repr

/-- The error in words.  What exactly is wrong with a malformed text stays unsaid. -/
def ComposeError.message : ComposeError → String
  | placeholderMismatch placeholders values =>
    "Mismatched number of placeholders (" ++ toString placeholders ++ ") and values (" ++
      toString values ++ ")"
  | expectedSingleValue => "Expecting exactly one value"
  | unsupportedExpression expression => "Unsupported expression " ++ quoted expression
  | emptyCondition => "Expecting statement"
  | missingMeasurement statement => statement.keyword ++ " requires a measurement"
  | retentionPolicyWithoutMeasurement =>
    "retention policy specified, but measurement was not specified"
  | invalidDuration token => "Invalid duration: " ++ quoted token
  | invalidFill option =>
    "Invalid fill option: " ++ quoted option ++
      ". Expected: null, none, previous, linear or a number"
  | noDatabase => "Configuration error: no database given and none configured"
  | invalidMoment moment reason =>
    "Configuration error: timestamp " ++ moment ++ " needs a date, time and offset: " ++
      reason.message
  | malformed => "Configuration error: ..."
  | unreadable reason => "IO error: " ++ reason.message

/-- What reading, building or composing gives. -/
abbrev Composed := Except ComposeError

end SeriesQuery
