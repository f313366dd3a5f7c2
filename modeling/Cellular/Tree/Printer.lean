import Cellular.Source.Printer
import Cellular.Tree.Condition

/-!
# Printing trees as programs

A tree is printed like the program that it would be. Only the parts that are written are
looked at, in the order in which they are written, and any value may stand in the place of
a name or a number.
-/

namespace Cellular.Tree

/-- Whether a tree counts as something: not as nothing, zero, or a sequence without
items. -/
def isPresent : Tree → Bool
  | leaf .missing => false
  | leaf (.word text) => !text.isEmpty
  | leaf value => !value.same (.whole 0)
  | node parts => !parts.isEmpty

/-- The part at a place. -/
def part (tree : Tree) (place : Nat) : Except TreeFault Tree := do
  match (← tree.parts)[place]? with
  | some part => return part
  | none => throw .missingPart

/-- The written form of a declared size. -/
def printSize (tree : Tree) : Except TreeFault (String × String) := do
  let (axis, size) ← tree.pair
  return (axis.text, size.text)

/-- The written form of an offset rule. What it has beyond three parts is not written. -/
def printOffset (tree : Tree) : Except TreeFault String := do
  match ← tree.parts with
  | axis :: direction :: magnitude :: _ =>
    return offsetText axis.text direction.text magnitude.text
  | _ => throw .missingPart

/-- Whether a tree is the mark of the default state. -/
def isDefaultMark : Tree → Bool
  | node [mark] => mark.isWord defaultText
  | _ => false

/-- The written form of an attribute. -/
def printAttribute (tree : Tree) : Except TreeFault String := do
  if tree.isDefaultMark then return defaultText
  return attributeText (← tree.part 0).text (← tree.part 1).text

/-- The written form of an entry of a block of states. -/
def printEntry (tree : Tree) : Except TreeFault String := do
  let (name, attributes) ← tree.pair
  if attributes.isPresent then
    return stateText name.text (← (← attributes.parts).mapM printAttribute)
  else return stateText name.text []

/-- The written form of a rule. -/
def printRule (tree : Tree) : Except TreeFault String := do
  let (source, target, condition) ← tree.threeOperands
  return ruleText source.text target.text (← condition.printCondition 0)

/-- The written form of an environment. -/
def printEnvironment (tree : Tree) : Except TreeFault String := do
  match ← tree.parts with
  | [_, rank, sizes] =>
    if sizes.isPresent then
      return environmentText rank.text (← (← sizes.parts).mapM printSize)
    else return environmentText rank.text []
  | _ => throw .wrongParts

/-- The written form of a value. -/
def printValue (tree : Tree) : Except TreeFault String := do
  let kind ← tree.tag
  if kind.isWord "ENVIRONMENT" then tree.printEnvironment
  else if kind.isWord "MOORE" || kind.isWord "VON_NEUMANN" then return kind.text
  else if kind.isWord "CUSTOM" then
    return offsetsText (← (← tree.operands).mapM printOffset)
  else if kind.isWord "VOID" then return Boundary.declaredText .void
  else if kind.isWord "WRAP" then return Boundary.declaredText .wrap
  else if kind.isWord "STATIC" then
    let state ← tree.part 1
    return staticText (if state.isMissing then none else some state.text)
  else if kind.isWord "STATES" then
    return blockText (← (← tree.operands).mapM printEntry)
  else if kind.isWord "RULES" then
    return rulesText (← (← tree.operands).mapM printRule)
  else throw (kind.unknown .value)

/-- The written form of a declaration. -/
def printDeclaration (tree : Tree) : Except TreeFault String := do
  let (_, key, value) ← tree.triple
  return declarationText key.text (← value.printValue)

/-- The text of a program. -/
def printProgram (tree : Tree) : Except TreeFault String := do
  return programText (← (← tree.parts).mapM printDeclaration)

end Cellular.Tree
