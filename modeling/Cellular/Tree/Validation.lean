import Cellular.Tree.Condition
import Cellular.Tree.Neighborhood
import Cellular.Tree.Printer
import Cellular.Validation.Basic

/-!
# Validating trees

A tree is validated like the program that it would be: in the same order, and with the
same problems. In addition anything may be missing or of another kind than its place
takes. Such a fault ends the validation where it is met, whatever problems were found so
far; a part that is not looked at may be anything.

What comes out of a tree keeps the values that stood in it, so the numbers of a checked
tree need not be whole.
-/

namespace Cellular

/-- A tree that makes sense as a program. -/
structure CheckedTree where
  rank : Tree
  sizes : List Tree
  offsets : List Tree
  boundary : Tree
  registry : Registry
  rules : List Tree
  warnings : List Warning

/-- The checked program as a constructed value. -/
def CheckedTree.construction (program : CheckedTree) : String :=
  "ValidatedProgram(rank=" ++ program.rank.text ++
    ", offsets=" ++ toString program.offsets.length ++
    ", boundary=" ++ program.boundary.text ++
    ", registry=" ++ program.registry.construction ++
    ", rules=" ++ toString program.rules.length ++ ")"

/-- Why a tree was not validated: it has problems, or a fault. -/
inductive TreeRejection where
  | rejected (problems : List (Problem Tree))
  | malformed (fault : TreeFault)

namespace Tree

/-- A check goes on after a problem, and ends with a fault. -/
abbrev Check := StateT (List (Problem Tree)) (Except TreeFault)

/-- Notes problems. -/
def note (problems : List (Problem Tree)) : Check Unit :=
  modify (· ++ problems)

/-- Notes a problem where there is one, and tells whether there is none. -/
def require (fine : Bool) (problem : Problem Tree) : Check Bool := do
  unless fine do note [problem]
  return fine

/-! ## Declarations -/

/-- The tags of the values that a key takes. -/
def tagsOf : Key → List String
  | .environment => ["ENVIRONMENT"]
  | .neighborhood => ["MOORE", "VON_NEUMANN", "CUSTOM"]
  | .boundary => ["VOID", "WRAP", "STATIC"]
  | .states => ["STATES"]
  | .rules => ["RULES"]

/-- The declarations that count: a key that is known, how it was written, and its value. -/
abbrev Slots := List (Key × Tree × Tree)

/-- What a key was declared as. -/
def Slots.find (slots : Slots) (key : Key) : Option (Tree × Tree) :=
  slots.lookup key

/-- One more declaration. It counts if its key is known, its value is of a kind that the
key takes, and the key was not declared before. -/
def addDeclaration (slots : Slots) (tree : Tree) : Check Slots := do
  let (_, key, value) ← tree.triple
  match Key.ofText? key.text with
  | none =>
    note [.unknownKey key.name]
    return slots
  | some known =>
    let kind ← value.tag
    if !(tagsOf known).any kind.isWord then
      note [.wrongKind key.name known]
      return slots
    match slots.find known with
    | some (first, _) =>
      note [.repeatedKey first.name key.name]
      return slots
    | none => return slots ++ [(known, key, value)]

/-- The declarations of a program that count. -/
def collect (declarations : List Tree) : Check Slots := do
  let slots ← declarations.foldlM addDeclaration []
  let keys ← declarations.mapM fun tree => do
    let (_, key, _) ← tree.triple
    return key.text
  note ((Key.required.filter fun key => !keys.contains key.text).map .missingKey)
  return slots

/-! ## Environment and neighbourhood -/

/-- The number of axes that have a name in a space of the given rank. A negative rank
counts from the last name, although such a space has no axes. -/
def namedAxes (rank : Int) : Nat :=
  if rank < 0 then (axisNames.length + rank).toNat else rank.toNat

/-- The axes of a space that a tree speaks of, if it speaks of any. -/
def axesNamed (rank : Int) (axis : Tree) : Option (List Nat) :=
  if axis.isWord everyAxis then some (List.range rank.toNat)
  else match axis with
    | leaf (.word name) =>
      ((axisIndex? name).filter fun index => index < namedAxes rank).map fun index => [index]
    | _ => none

/-- Whether a number is at least one. -/
def isPositive (number : Tree) : Except TreeFault Bool := do
  return !(← decided (number.less? (whole 1)))

/-- Puts a size in the place of an axis. -/
def putSize (size : Tree) (sizes : List Tree) (axis : Nat) : Except TreeFault (List Tree) :=
  if axis < sizes.length then .ok (sizes.set axis size) else .error .missingPart

/-- One more declared size. -/
def addSize (rank : Tree) (sizes : List Tree) (entry : Tree) : Check (List Tree) := do
  let (axis, size) ← entry.pair
  match axesNamed (← rank.integer) axis with
  | none =>
    note [.noSuchAxis axis.name rank]
    return sizes
  | some axes =>
    if ← require (← size.isPositive) (.sizeNotPositive axis.name size) then
      let sized : Except TreeFault (List Tree) := axes.foldlM (putSize size) sizes
      sized
    else return sizes

/-- The rank of an environment, and the sizes of its axes, as far as they are declared, if
so much memory can list them. -/
def checkEnvironment (memory : Nat) (value : Tree) : Check (Tree × List Tree) := do
  match ← value.parts with
  | [_, rank, sizes] =>
    let axes ← rank.length
    if let some fault := lengthFault? memory axes.toNat then throw (ofLengthFault fault)
    let unsized := List.replicate axes.toNat missing
    return (rank, ← (← sizes.parts).foldlM (addSize rank) unsized)
  | _ => throw .wrongParts

/-- Whether an offset rule has no problems. -/
def checkOffset (rank rule : Tree) : Check Bool := do
  let (axis, direction, magnitude) ← rule.triple
  let known ← require (axesNamed (← rank.integer) axis).isSome (.noSuchAxis axis.name rank)
  let positive ← require (← magnitude.isPositive)
    (.magnitudeNotPositive axis.name direction.text magnitude)
  return known && positive

/-- The offsets of a neighbourhood, if its rules have no problems and so much memory can
list them. -/
def checkNeighborhood (memory : Nat) (rank key value : Tree) : Check (Option (List Tree)) := do
  if (← value.tag).isWord "CUSTOM" then
    let fine ← (← value.operands).mapM (checkOffset rank)
    unless fine.all id do return none
  let found ← value.offsets memory rank
  let _ ← require (!found.isEmpty) (.emptyNeighborhood key.name)
  return some found

/-! ## States -/

/-- The attributes of a state as far as they were read. -/
structure Attributes where
  marked : Bool := false
  table : Table String String := Table.empty

/-- The states of a block as far as they were read: the names that were declared, the name
of the default state, if it is something, and the states. -/
structure Block where
  declared : List Tree := []
  default : Tree := missing
  states : List State := []

/-- One more attribute of a state. Of two attributes with one key the first counts, if the
key is a word; other keys that look alike override each other. -/
def addAttribute (state : Tree) (block : Block) (attributes : Attributes) (tree : Tree) :
    Check (Block × Attributes) := do
  if tree.isDefaultMark then
    if attributes.marked then note [.markedTwice state.name]
    else if !block.default.isMissing then
      note [.secondDefault block.default.text state.name]
    let first := !attributes.marked && block.default.isMissing
    return (if first then { block with default := state } else block,
      { attributes with marked := true })
  else
    let (key, token) ← tree.pair
    if key.isWord key.text && attributes.table.contains key.text then
      note [.repeatedAttribute state.name key.name]
      return (block, attributes)
    else return (block,
      { attributes with table := attributes.table.insert key.text token.text })

/-- One more entry of a block. An entry with a name that was declared before counts for
nothing. -/
def addState (block : Block) (entry : Tree) : Check Block := do
  let (name, attributes) ← entry.pair
  match block.declared.find? name.same with
  | some first =>
    note [.repeatedState first.name name.name]
    return block
  | none =>
    let (block, read) ← (← attributes.parts).foldlM
      (fun (block, read) tree => addAttribute name block read tree) (block, {})
    let isDefault := read.marked && block.default.same name
    return { block with
      declared := block.declared ++ [name]
      states := block.states ++ [⟨name.text, block.states.length, isDefault, read.table⟩] }

/-- The registry of a block of states. -/
def checkStates (value : Tree) : Check Registry := do
  let block ← (← value.operands).foldlM addState {}
  match Registry.ofStates? block.states with
  | some registry => return registry
  | none => throw .severalDefaults

/-- The number of the state that a tree names. -/
def stateIndex? (registry : Registry) : Tree → Option Nat
  | leaf (.word name) => registry.indexOf? name
  | _ => none

/-! ## Boundary and rules -/

/-- The boundary, with the number of its state, unless it has a problem. A boundary
without a state stays as it is. -/
def checkBoundary (registry : Registry) (key value : Tree) : Check Tree := do
  let kind ← value.tag
  if !kind.isWord "STATIC" then return value
  let state ← value.part 1
  let found := if state.isMissing then registry.default?.map fun state => state.index.toNat
    else stateIndex? registry state
  let problem := if state.isMissing then .noDefault key.name
    else .undeclaredInBoundary state.name
  let _ ← require found.isSome problem
  return node [kind, whole (found.getD 0)]

/-- Whether a bound is a possible count. While the neighbourhood is not known, every bound
is. -/
def isReachable (most : Option Nat) (bound : Tree) : Except TreeFault Bool :=
  match most with
  | none => .ok true
  | some most => do
    if ← decided (compare? .atMost (whole 0) bound) then
      decided (compare? .atMost bound (whole most))
    else return false

/-- The problems of a test, and its resolved form if there are none. -/
def resolveTest (registry : Registry) (most : Option Nat) (tree : Tree) :
    Except TreeFault (List (Problem Tree) × Option Tree) := do
  match ← tree.test .condition with
  | .constant => throw (.unknown (.condition "TRUE"))
  | .comparison symbol state bound =>
    let index := stateIndex? registry state
    let undeclared := if index.isSome then [] else [.undeclaredInCondition state.name]
    let beyond := if ← isReachable most bound then []
      else [.outOfRange state.name symbol.text bound (most.getD 0)]
    let problems : List (Problem Tree) := undeclared ++ beyond
    if problems.isEmpty then
      return ([], index.map fun index => node [word "COMPARE", symbol, whole index, bound])
    else return (problems, none)

/-- What was found out about the rules: their resolved forms and the warnings. -/
structure Rules where
  rules : List Tree := []
  warnings : List Warning := []

/-- One more rule. A condition that is nested too deep is not looked into, and a rule
without problems that never changes a cell gives a warning. -/
def addRule (registry : Registry) (most : Option Nat) (checked : Rules) (rule : Tree) :
    Check Rules := do
  let (source, target, condition) ← rule.threeOperands
  let sourceIndex := stateIndex? registry source
  let targetIndex := stateIndex? registry target
  let _ ← require sourceIndex.isSome (.undeclaredInRule .source source.name)
  let _ ← require targetIndex.isSome (.undeclaredInRule .target target.name)
  if maxDepth < (← condition.depth) then
    note [.nestedTooDeep source.name target.name]
    return checked
  let (problems, resolved) ← condition.skeleton.resolveBy (resolveTest registry most) false
  note problems
  match sourceIndex, targetIndex, resolved with
  | some sourceIndex, some targetIndex, some condition =>
    let idle := if source.same target then [⟨source.name, target.name⟩] else []
    return {
      rules := checked.rules ++
        [node [word "RULE", whole sourceIndex, whole targetIndex, ofCondition id condition]]
      warnings := checked.warnings ++ idle }
  | _, _, _ => return checked

/-! ## Programs -/

/-- What is found out about a program, as far as it can be, in so much memory. -/
def check (memory : Nat) (tree : Tree) : Check (Option CheckedTree) := do
  let slots ← collect (← tree.parts)
  let space ← (slots.find .environment).mapM fun (_, value) => checkEnvironment memory value
  let offsets ← match space, slots.find .neighborhood with
    | some (rank, _), some (key, value) => checkNeighborhood memory rank key value
    | _, _ => pure none
  let registry ← (slots.find .states).mapM fun (_, value) => checkStates value
  let boundary ← match slots.find .boundary, registry with
    | some (key, value), some registry => checkBoundary registry key value
    | _, _ => pure (node [word "VOID"])
  let checked ← match slots.find .rules, registry with
    | some (_, value), some registry =>
      (← value.operands).foldlM (addRule registry (offsets.map List.length)) {}
    | _, _ => pure {}
  match space, offsets, registry with
  | some (rank, sizes), some offsets, some registry =>
    return some ⟨rank, sizes, offsets, boundary, registry, checked.rules, checked.warnings⟩
  | _, _, _ => return none

/-- Validates a tree in so much memory. -/
def validate (memory : Nat) (tree : Tree) : Except TreeRejection CheckedTree :=
  match (tree.check memory).run [] with
  | .error fault => .error (.malformed fault)
  | .ok (some program, []) => .ok program
  | .ok (_, problems) => .error (.rejected problems)

end Tree

end Cellular
