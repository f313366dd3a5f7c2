import Cellular.Source.Reader
import Cellular.Program.Basic

/-!
# Loading programs

A source text is read, validated and compiled. Loading fails in the first stage that
fails.
-/

namespace Cellular

/-- Why a source text was not loaded. -/
inductive LoadFault where
  | unread (fault : ReadFault)
  | invalid (fault : ValidationFault)
  | noRoom (fault : LengthFault)

/-- Reads and validates a source text. -/
def readValidated (source : String) : Except LoadFault Validated := do
  let program ← (readProgram source).mapError .unread
  (validate program).mapError .invalid

/-- Reads, validates and compiles a source text. -/
def load (source : String) : Except LoadFault Program := do
  return (← readValidated source).compile

end Cellular
