import Cellular.Fault.TreeFault
import Cellular.Source.Position
import Cellular.Text.Scalar

/-!
# Trees

A program, or a part of one, may be handed over as a tree instead of a text. A tree is a
leaf with a value of any kind, or a node with parts; the first part of a node is its tag.
Nothing keeps a tree from being no program at all. So trees are looked at part by part,
and what is wrong with one is found where it matters.

A word takes part in this as the node of its characters. Two trees are equal if they have
the same shape and equal values, and nodes are ordered by their first different part.
-/

namespace Cellular

/-- A value, or a node with parts. -/
inductive Tree where
  | leaf (value : Scalar)
  | node (parts : List Tree)
deriving Inhabited

namespace Tree

/-- A word as a tree. -/
def word (text : String) : Tree := leaf (.word text)

/-- A whole number as a tree. -/
def whole (n : Int) : Tree := leaf (.whole n)

/-- Nothing, as a tree. -/
def missing : Tree := leaf .missing

/-- Whether a tree is the given word. -/
def isWord (text : String) : Tree → Bool
  | leaf (.word own) => own == text
  | _ => false

/-- Whether a tree is nothing. -/
def isMissing : Tree → Bool
  | leaf .missing => true
  | _ => false

/-! ## Texts -/

mutual

/-- A tree as an item of a sequence. -/
def item : Tree → String
  | leaf value => value.item
  | node parts => Text.tuple (items parts)

/-- Trees as items of a sequence. -/
def items : List Tree → List String
  | [] => []
  | tree :: trees => item tree :: items trees

end

/-- A tree as a text of its own. -/
def text : Tree → String
  | leaf value => value.text
  | tree => tree.item

instance : ToString Tree := ⟨text⟩

/-- A tree as a name, which has no place. -/
def name (tree : Tree) : Name :=
  ⟨tree.text, none⟩

/-! ## Equality and order -/

mutual

/-- Whether two trees are equal. -/
def same : Tree → Tree → Bool
  | leaf a, leaf b => a.same b
  | node as, node bs => sameList as bs
  | _, _ => false

/-- Whether two lists of trees are equal. -/
def sameList : List Tree → List Tree → Bool
  | [], [] => true
  | a :: as, b :: bs => same a b && sameList as bs
  | _, _ => false

end

mutual

/-- Whether a tree is less than another, if they can be compared. -/
def less? : Tree → Tree → Option Bool
  | leaf a, leaf b => a.less? b
  | node as, node bs => lessList? as bs
  | _, _ => none

/-- Whether a list of trees is less than another: it is less at the first difference, or
it ends earlier. -/
def lessList? : List Tree → List Tree → Option Bool
  | [], bs => some !bs.isEmpty
  | _ :: _, [] => some false
  | a :: as, b :: bs => if same a b then lessList? as bs else less? a b

end

/-- Drops every tree that equals the one before it. -/
def dropRepeats : List Tree → List Tree
  | [] => []
  | tree :: trees => match dropRepeats trees with
    | [] => [tree]
    | next :: rest => if tree.same next then tree :: rest else tree :: next :: rest

/-- Whether each tree can be compared with the next one. -/
def areComparable : List Tree → Bool
  | first :: second :: rest => (first.less? second).isSome && areComparable (second :: rest)
  | _ => true

/-- The distinct trees of a list in increasing order, if they have one. Of equal trees
the first is kept. -/
def sorted (trees : List Tree) : Except TreeFault (List Tree) :=
  let increasing := dropRepeats (trees.mergeSort fun a b => (b.less? a) != some true)
  if areComparable increasing then .ok increasing else .error .wrongKind

/-! ## Parts -/

/-- The parts of a node, or the characters of a word. -/
def parts : Tree → Except TreeFault (List Tree)
  | node parts => .ok parts
  | leaf (.word text) => .ok (text.toList.map fun c => word c.toString)
  | leaf _ => .error .wrongKind

/-- The first part. -/
def tag (tree : Tree) : Except TreeFault Tree := do
  match ← tree.parts with
  | first :: _ => return first
  | [] => throw .missingPart

/-- The parts after the first. -/
def operands (tree : Tree) : Except TreeFault (List Tree) := do
  return (← tree.parts).tail

/-- The two parts of a pair. -/
def pair (tree : Tree) : Except TreeFault (Tree × Tree) := do
  match ← tree.parts with
  | [first, second] => return (first, second)
  | _ => throw .wrongParts

/-- The three parts of a triple. -/
def triple (tree : Tree) : Except TreeFault (Tree × Tree × Tree) := do
  match ← tree.parts with
  | [first, second, third] => return (first, second, third)
  | _ => throw .wrongParts

/-- The three operands of a node. -/
def threeOperands (tree : Tree) : Except TreeFault (Tree × Tree × Tree) := do
  match ← tree.parts with
  | [_, first, second, third] => return (first, second, third)
  | _ => throw .wrongParts

/-- The whole number that a tree stands for. -/
def integer : Tree → Except TreeFault Int
  | leaf value => match value.integer? with
    | some n => .ok n
    | none => .error .wrongKind
  | node _ => .error .wrongKind

/-- What is wrong with a tag that means nothing. Only words are reported. -/
def unknown (report : String → UnknownTag) : Tree → TreeFault
  | leaf (.word text) => .unknown (report text)
  | _ => .wrongKind

/-- The answer to a comparison that need not have one. -/
def decided : Option Bool → Except TreeFault Bool
  | some answer => .ok answer
  | none => .error .wrongKind

end Tree

end Cellular
