import Cellular.Engine.History
import Cellular.Fault.Report

/-!
# Notices

A notice tells that a stage of loading or running a program is done and how long it
took. Warnings are told before the validation that found them is done.
-/

namespace Cellular

/-- What is told on the way. -/
inductive Notice where
  | read (declarations : Nat)
  | warned (warning : Warning)
  | validated
  | compiled (rules : Nat)
  | started (shape : List Nat)
  | advanced (generation : Nat)
deriving DecidableEq, Repr

/-- The line of a notice, with the text of the time that was taken. -/
def Notice.text (time : String) : Notice → String
  | read declarations => "Parsed " ++ toString declarations ++ " declarations in time " ++ time
  | warned warning =>
    let remark := warning.remark
    "Warning (line " ++ Remark.numberText remark.line ++ " col " ++
      Remark.numberText remark.column ++ "): " ++ remark.message
  | validated => "Validated in time " ++ time
  | compiled rules => "Compiled " ++ toString rules ++ " rules in time " ++ time
  | started shape =>
    "Initialized grid of size " ++ Text.tuple (shape.map toString) ++ " in time " ++ time
  | advanced generation =>
    "Generation " ++ toString generation ++ " computed in time " ++ time

/-- What a validation with the given warnings tells. -/
def validationNotices (warnings : List Warning) : List Notice :=
  warnings.map Notice.warned ++ [.validated]

/-- What loading tells, as far as it comes. -/
def loadNotices (source : String) : List Notice :=
  match readProgram source with
  | .error _ => []
  | .ok program => .read program.length :: match validate program with
    | .error _ => []
    | .ok checked => validationNotices checked.warnings ++ [.compiled checked.rules.length]

namespace Engine

/-- What a start tells: the size of the new grid. -/
def startNotices (engine : Engine) : List Notice :=
  engine.current.toList.map fun grid => .started grid.shape

/-- What a run tells that ended at a later generation: every generation on the way. -/
def runNotices (before after : Engine) : List Notice :=
  (List.range (after.generation - before.generation)).map fun passed =>
    .advanced (before.generation + passed + 1)

end Engine

end Cellular
