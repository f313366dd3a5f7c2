import Cellular.Program.Load

/-!
# Loading programs in finite memory

A rule of a neighbourhood may ask for more vectors than have a place in memory. The
operations here are given the number of bytes that there are. They first look for such a
rule, and do what loading a program does if there is none. The sizes of the axes are only
listed when the rank of a program is known, and its neighbourhood when its rules have no
problems besides.
-/

namespace Cellular

/-- Why the offsets of a rule cannot be listed in a space of the given rank, in so much
memory. Within a distance there are two offsets at each step along an axis, or a cube. -/
def OffsetRule.lengthFault? (memory rank : Nat) (rule : OffsetRule) : Option LengthFault :=
  if rule.direction = .within then
    if rule.axis.text = everyAxis then cubeFault? memory rank rule.magnitude
    else growthFault? memory (2 * rule.magnitude.toNat)
  else none

/-- Why the offsets of a neighbourhood cannot be listed in a space of the given rank, in so
much memory. -/
def Neighborhood.lengthFault? (memory rank : Nat) : Neighborhood → Option LengthFault
  | moore | vonNeumann => cubeFault? memory rank 1
  | custom rules => rules.findSome? (OffsetRule.lengthFault? memory rank)

/-- Why the sizes or the neighbourhood of a program cannot be listed in so much memory. -/
def Outline.lengthFault? (memory : Nat) (outline : Outline) : Option LengthFault := do
  let (_, space) ← outline.environment
  (Cellular.lengthFault? memory space.rank).or do
    let (_, shape) ← outline.neighborhood
    if (shape.problems space.rank).isEmpty then shape.lengthFault? memory space.rank else none

/-- Reads and validates a source text, if there is room for its neighbourhood. -/
def readValidatedInMemory (memory : Nat) (source : String) : Except LoadFault Validated := do
  let program ← (readProgram source).mapError .unread
  if let some fault := (Outline.ofProgram program).1.lengthFault? memory then
    throw (.noRoom fault)
  (validate program).mapError .invalid

/-- Reads, validates and compiles a source text, if there is room for its neighbourhood. -/
def loadInMemory (memory : Nat) (source : String) : Except LoadFault Program := do
  return (← readValidatedInMemory memory source).compile

end Cellular
