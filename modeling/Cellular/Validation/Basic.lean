import Cellular.Validation.Outline
import Cellular.Validation.Resolution

/-!
# Validation

Validation finds everything that is wrong with a program, or turns it into a
validated program: a rank, sizes, a sorted set of offsets, a boundary, a registry of
states and rules that speak of states by number. Problems come in a fixed order:
those of the declarations, missing keys, then those of the environment, the
neighbourhood, the states, the boundary and the rules. A part that is missing is not
checked, and neither is what cannot be checked without it.
-/

namespace Cellular

/-- A program that makes sense. -/
structure Validated where
  rank : Nat
  sizes : List (Option Nat)
  offsets : List Vec
  boundary : Boundary Nat
  registry : Registry
  rules : List (Rule Nat)
  warnings : List Warning

/-- Why a program was not validated: it has problems, or a part of it means nothing. -/
inductive ValidationFault where
  | rejected (problems : List Problem)
  | malformed (fault : TreeFault)
  | noOffsets (fault : OffsetFault)

/-! ## Environment and neighbourhood -/

/-- The axes of a space that a name speaks of, if it speaks of any. -/
def axesNamed (rank : Nat) (axis : Name) : Option (List Nat) :=
  if axis.text = everyAxis then some (List.range rank)
  else match axisIndex? axis.text with
    | some index => if index < rank then some [index] else none
    | none => none

namespace Environment

/-- The problem of one declared size. -/
def sizeProblem (rank : Nat) (axis : Name) (size : Int) : List Problem :=
  if (axesNamed rank axis).isNone then [.noSuchAxis axis rank]
  else if size < 1 then [.sizeNotPositive axis size]
  else []

/-- The problems of an environment. -/
def problems (space : Environment) : List Problem :=
  space.sizes.flatMap fun (axis, size) => sizeProblem space.rank axis size

/-- The size of every axis, where a later declaration overrides an earlier one. Sizes
with a problem count for nothing. -/
def resolvedSizes (space : Environment) : List (Option Nat) :=
  space.sizes.foldl
    (fun sizes (axis, size) =>
      if (sizeProblem space.rank axis size).isEmpty then
        ((axesNamed space.rank axis).getD []).foldl
          (fun sizes index => sizes.set index (some size.toNat)) sizes
      else sizes)
    (List.replicate space.rank none)

end Environment

/-- The problems of one offset rule. -/
def OffsetRule.problems (rank : Nat) (rule : OffsetRule) : List Problem :=
  (if (axesNamed rank rule.axis).isNone then [.noSuchAxis rule.axis rank] else []) ++
    if rule.magnitude < 1 then
      [.magnitudeNotPositive rule.axis rule.direction.symbol rule.magnitude]
    else []

/-- The problems of the rules of a neighbourhood. -/
def Neighborhood.problems (rank : Nat) : Neighborhood → List Problem
  | .moore | .vonNeumann => []
  | .custom rules => rules.flatMap (OffsetRule.problems rank)

/-- The problems of a neighbourhood, and its offsets if its rules have none. -/
def checkNeighborhood (rank : Nat) (key : Name) (shape : Neighborhood) :
    Except OffsetFault (List Problem × Option (List Vec)) := do
  let problems := shape.problems rank
  if problems.isEmpty then
    let offsets ← shape.offsets rank
    return (if offsets.isEmpty then [.emptyNeighborhood key] else [], some offsets)
  else return (problems, none)

/-! ## States -/

/-- The attributes of a state as far as they were read. -/
structure OpenAttributes where
  marked : Bool := false
  table : Table String String := Table.empty
  problems : List Problem := []

/-- One more attribute of a state. The first default mark counts if no earlier state
is the default, and of two attributes with one key the first. -/
def OpenAttributes.add (registry : Registry) (state : Name) (attributes : OpenAttributes) :
    Attribute → OpenAttributes
  | .defaultMark =>
    let found : List Problem :=
      if attributes.marked then [.markedTwice state]
      else match registry.default? with
        | some first => [.secondDefault first.name state]
        | none => []
    { attributes with marked := true, problems := attributes.problems ++ found }
  | .keyed key token =>
    if attributes.table.contains key.text then
      { attributes with problems := attributes.problems ++ [.repeatedAttribute state key] }
    else
      { attributes with table := attributes.table.insert key.text token.text }

/-- The states of a block as far as they were read, with the names that declared them. -/
structure OpenRegistry where
  registry : Registry := Registry.empty
  declared : List Name := []
  problems : List Problem := []

/-- One more entry of a block of states. An entry with a name that was declared before
counts for nothing. -/
def OpenRegistry.add (states : OpenRegistry) (entry : StateEntry) : OpenRegistry :=
  match states.declared.find? fun name => name.text == entry.name.text with
  | some first =>
    { states with problems := states.problems ++ [.repeatedState first entry.name] }
  | none =>
    let attributes := entry.attributes.foldl (OpenAttributes.add states.registry entry.name) {}
    { registry := states.registry.add entry.name.text attributes.marked attributes.table
      declared := states.declared ++ [entry.name]
      problems := states.problems ++ attributes.problems }

/-- The registry of a block of states, and its problems. -/
def checkStates (entries : List StateEntry) : OpenRegistry :=
  entries.foldl OpenRegistry.add {}

/-! ## Boundary and rules -/

/-- The problems of a boundary, and its resolved form if there are none. A static
boundary without a state takes the default state. -/
def checkBoundary (registry : Registry) (key : Name) :
    Boundary (Option Name) → List Problem × Option (Boundary Nat)
  | .void => ([], some .void)
  | .wrap => ([], some .wrap)
  | .static none => match registry.default? with
    | some state => ([], some (.static state.index.toNat))
    | none => ([.noDefault key], none)
  | .static (some state) => match registry.indexOf? state.text with
    | some index => ([], some (.static index))
    | none => ([.undeclaredInBoundary state], none)

/-- The problem of a state of a rule. -/
def roleProblems (registry : Registry) (role : Role) (state : Name) : List Problem :=
  if registry.declares state.text then [] else [.undeclaredInRule role state]

/-- The problems of a rule, and its resolved form if there are none. A condition that
is nested too deep is not looked into. -/
def Rule.resolve (registry : Registry) (most : Option Nat) (rule : Rule Name) :
    Except TreeFault (List Problem × Option (Rule Nat)) := do
  let undeclared := roleProblems registry .source rule.source ++
    roleProblems registry .target rule.target
  if maxDepth < rule.condition.depth then
    return (undeclared ++ [.nestedTooDeep rule.source rule.target], none)
  else
    let (problems, condition) ← rule.condition.resolve registry most
    return (undeclared ++ problems, do
      return ⟨← registry.indexOf? rule.source.text, ← registry.indexOf? rule.target.text,
        ← condition⟩)

/-- What was found out about the rules of a program. -/
structure CheckedRules where
  problems : List Problem := []
  rules : List (Rule Nat) := []
  warnings : List Warning := []

/-- Resolves the rules one by one. A rule without problems that never changes a cell
gives a warning. -/
def checkRules (registry : Registry) (most : Option Nat) :
    List (Rule Name) → Except TreeFault CheckedRules
  | [] => .ok {}
  | rule :: rest => do
    let (problems, resolved) ← rule.resolve registry most
    let others ← checkRules registry most rest
    let idle := resolved.isSome && rule.source.text == rule.target.text
    return {
      problems := problems ++ others.problems
      rules := resolved.toList ++ others.rules
      warnings := (if idle then [⟨rule.source, rule.target⟩] else []) ++ others.warnings }

/-! ## Programs -/

/-- The neighbourhood of a program, when it has one and its rank is known. -/
def Outline.checkOffsets (outline : Outline) :
    Except OffsetFault (List Problem × Option (List Vec)) :=
  match outline.environment, outline.neighborhood with
  | some (_, space), some (key, shape) => checkNeighborhood space.rank key shape
  | _, _ => .ok ([], none)

/-- The boundary of a program with known states; nothing lies beyond the edge unless
the program says so. -/
def Outline.checkEdge (outline : Outline) (registry : Option Registry) :
    List Problem × Option (Boundary Nat) :=
  match outline.boundary, registry with
  | some (key, edge), some registry => checkBoundary registry key edge
  | _, _ => ([], some .void)

/-- The rules of a program with known states. -/
def Outline.checkRules (outline : Outline) (registry : Option Registry) (most : Option Nat) :
    Except TreeFault CheckedRules :=
  match outline.rules, registry with
  | some (_, rules), some registry => Cellular.checkRules registry most rules
  | _, _ => .ok {}

/-- Validates a program. -/
def validate (program : List Declaration) : Except ValidationFault Validated := do
  let (outline, declared) := Outline.ofProgram program
  let (shapeProblems, offsets) ← outline.checkOffsets.mapError .noOffsets
  let states := outline.states.map fun (_, entries) => checkStates entries
  let registry := states.map OpenRegistry.registry
  let (edgeProblems, boundary) := outline.checkEdge registry
  let checked ← (outline.checkRules registry (offsets.map List.length)).mapError .malformed
  let problems := declared ++ missingKeys program ++
    ((outline.environment.map fun (_, space) => space.problems).getD []) ++ shapeProblems ++
    ((states.map OpenRegistry.problems).getD []) ++ edgeProblems ++ checked.problems
  match problems, outline.environment, offsets, registry, boundary with
  | [], some (_, space), some offsets, some registry, some boundary =>
    return {
      rank := space.rank
      sizes := space.resolvedSizes
      offsets := offsets
      boundary := boundary
      registry := registry
      rules := checked.rules
      warnings := checked.warnings }
  | problems, _, _, _, _ => throw (.rejected problems)

end Cellular
