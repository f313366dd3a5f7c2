import Cellular.Engine.Basic
import Cellular.Source.Reader

/-!
# Reports

A report says what is wrong with a program, with a grid, or with the order in which an
engine is used. Reports about a source text say where, as far as that is known: a
message without a line stands alone, and in front of a message with a line stand the
line and the column.
-/

namespace Cellular

/-- A message with the line and the column that it is about. -/
structure Remark where
  message : String
  line : Option Int := none
  column : Option Int := none
deriving DecidableEq, Repr

namespace Remark

/-- A message about a place, if there is one. -/
def about (message : String) (place : Option Position) : Remark where
  message := message
  line := place.map fun place => place.line
  column := place.map fun place => place.column

/-- A line or column in a sentence. -/
def numberText : Option Int → String
  | some number => toString number
  | none => Text.missing

/-- The message, after its line and column if it has a line. -/
def text (remark : Remark) : String :=
  if remark.line.isSome then
    "line " ++ numberText remark.line ++ " col " ++ numberText remark.column ++ ": " ++
      remark.message
  else remark.message

end Remark

/-- What is wrong, by kind: in the source text, in the program that it describes, in
what is asked of a grid, in the order of what is asked of an engine, or otherwise. -/
inductive Report where
  | source (remark : Remark)
  | program (remarks : List Remark)
  | configuration (message : String)
  | readiness (message : String)
  | general (message : String)
deriving DecidableEq, Repr

/-- The text of a report. Of a program every remark has a line of its own. -/
def Report.text : Report → String
  | source remark => remark.text
  | program remarks => "\n".intercalate (remarks.map Remark.text)
  | configuration message | readiness message | general message => message

/-- The report of a text that could not be read. -/
def ReadFault.report (fault : ReadFault) : Report :=
  .source (.about fault.unexpected.message (some fault.place))

/-- A problem as a remark. -/
def Problem.remark {ν : Type} [ToString ν] (problem : Problem ν) : Remark :=
  .about problem.message problem.place?

/-- A warning as a remark. -/
def Warning.remark (warning : Warning) : Remark :=
  .about warning.message warning.place?

/-- The report of a program that makes no sense. -/
def Report.ofProblems {ν : Type} [ToString ν] (problems : List (Problem ν)) : Report :=
  .program (problems.map Problem.remark)

/-- The report of a grid that cannot be set up or read as asked. -/
def ConfigurationFault.report (fault : ConfigurationFault) : Report :=
  .configuration fault.message

/-- The report of a task that needs a grid. -/
def Report.notReady (task : String) : Report :=
  .readiness ("Cannot " ++ task ++ " before the grid is initialized")

end Cellular
