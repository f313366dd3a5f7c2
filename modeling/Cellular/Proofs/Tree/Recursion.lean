import Cellular.Proofs.Tree.Conditions

/-!
# Printing trees by recursion

The printer of conditions keeps a stack of tasks and a stack of texts. What it prints of a
tree can be said by recursion on the tree, without either of them. As long as every
conjunction and disjunction has an operand, the stack of texts ends with the one text that
the recursion gives. The printer fails if some node in the place of a condition is none, and
reports the first of these from left to right, whether nodes lack operands or not.
-/

namespace Cellular.Tree

/-! ## Recursion -/

mutual

/-- The written form of a tree as a condition, at a place that asks for the given strength. A
comparison has no parentheses; any other node has them if it binds no more tightly than the
place asks for. -/
def printedCondition (outer : Int) : Tree → Except TreeFault String
  | node (tag :: parts) =>
    if tag.isWord "COMPARE" then match parts with
      | [symbol, state, bound] => return testText state.text symbol.text bound.text
      | _ => throw .wrongParts
    else if tag.isWord "NOT" then match parts with
      | operand :: _ => do
        return Condition.enclosed (3 ≤ outer) ("!" ++ (← printedCondition 2 operand))
      | [] => throw .missingPart
    else if tag.isWord "AND" then do
      return Condition.enclosed (2 ≤ outer) (" & ".intercalate (← printedConditions 2 parts))
    else if tag.isWord "OR" then do
      return Condition.enclosed (1 ≤ outer) (" | ".intercalate (← printedConditions 1 parts))
    else throw (tag.unknown .condition)
  | node [] => throw .missingPart
  | leaf value => do throw ((← (leaf value).tag).unknown .condition)

/-- The written forms of trees as conditions. -/
def printedConditions (outer : Int) : List Tree → Except TreeFault (List String)
  | [] => return []
  | tree :: trees => do
    return (← printedCondition outer tree) :: (← printedConditions outer trees)

end

/-! ## Places of conditions -/

mutual

/-- What stands in the place of a condition in a tree, from left to right, every node before
its operands. -/
def conditionNodes : Tree → List Tree
  | node (tag :: parts) =>
    node (tag :: parts) ::
      if tag.isWord "AND" || tag.isWord "OR" then conditionNodesList parts
      else if tag.isWord "NOT" then match parts with
        | operand :: _ => conditionNodes operand
        | [] => []
      else []
  | tree => [tree]

/-- The same for trees that all stand in the place of a condition. -/
def conditionNodesList : List Tree → List Tree
  | [] => []
  | tree :: trees => conditionNodes tree ++ conditionNodesList trees

end

/-- A node that is a condition if its operands are. -/
inductive IsCondition : Tree → Prop
  | comparison (symbol state bound : Tree) :
      IsCondition (node [word "COMPARE", symbol, state, bound])
  | negation (operand : Tree) (rest : List Tree) :
      IsCondition (node (word "NOT" :: operand :: rest))
  | conjunction (operands : List Tree) : IsCondition (node (word "AND" :: operands))
  | disjunction (operands : List Tree) : IsCondition (node (word "OR" :: operands))

theorem isWord_iff {tree : Tree} {text : String} : tree.isWord text = true ↔ tree = word text := by
  cases tree with
  | leaf value => cases value <;> simp [isWord, word]
  | node parts => simp [isWord, word]

/-- A node is a test of its skeleton unless its tag is one of three, and a negation is a test if
it has no operand. -/
theorem skeleton_eq_test_iff {tag : Tree} {parts : List Tree} :
    (node (tag :: parts)).skeleton = .test (node (tag :: parts)) ↔
      tag ≠ word "AND" ∧ tag ≠ word "OR" ∧ (tag = word "NOT" → parts = []) := by
  by_cases isAnd : tag = word "AND"
  · subst isAnd
    simp [skeleton_and]
  by_cases isOr : tag = word "OR"
  · subst isOr
    simp [skeleton_or]
  cases parts with
  | nil => simp [skeleton, isWord_iff, isAnd, isOr]
  | cons operand rest =>
      by_cases isNot : tag = word "NOT"
      · subst isNot
        simp [skeleton_not]
      · simp [skeleton, isWord_iff, isAnd, isOr, isNot]

/-- Induction on a tree: a node inherits a property from all of its parts. -/
@[elab_as_elim]
theorem inductOn {motive : Tree → Prop} (tree : Tree) (leaf : ∀ value, motive (leaf value))
    (node : ∀ parts, (∀ part ∈ parts, motive part) → motive (node parts)) : motive tree := by
  refine Tree.rec (motive_1 := motive) (motive_2 := fun parts => ∀ part ∈ parts, motive part)
    leaf node ?_ ?_ tree
  · intro part member
    exact absurd member List.not_mem_nil
  · intro part parts first others
    exact List.forall_mem_cons.mpr ⟨first, others⟩

/-- Induction on a tree in the place of a condition: a node of the skeleton inherits a property
from its operands, and whatever else there is has it by itself. -/
@[elab_as_elim]
theorem inductOnCondition {motive : Tree → Prop} (tree : Tree)
    (test : ∀ tree : Tree, tree.skeleton = .test tree → motive tree)
    (negation : ∀ operand rest, motive operand → motive (node (word "NOT" :: operand :: rest)))
    (conjunction : ∀ operands, (∀ operand ∈ operands, motive operand) →
      motive (node (word "AND" :: operands)))
    (disjunction : ∀ operands, (∀ operand ∈ operands, motive operand) →
      motive (node (word "OR" :: operands))) : motive tree := by
  induction tree using inductOn with
  | leaf value => exact test _ rfl
  | node parts each =>
      -- the tag decides which of the cases a node is
      cases parts with
      | nil => exact test _ rfl
      | cons tag parts =>
          rcases List.forall_mem_cons.mp each with ⟨_, operands⟩
          by_cases isAnd : tag = word "AND"
          · subst isAnd
            exact conjunction parts operands
          by_cases isOr : tag = word "OR"
          · subst isOr
            exact disjunction parts operands
          by_cases isTest : tag = word "NOT" → parts = []
          · exact test _ (skeleton_eq_test_iff.mpr ⟨isAnd, isOr, isTest⟩)
          · rw [Classical.not_imp] at isTest
            rcases isTest with ⟨rfl, some_operand⟩
            rcases List.exists_cons_of_ne_nil some_operand with ⟨operand, rest, rfl⟩
            exact negation operand rest (operands operand List.mem_cons_self)

/-! ## Tests -/

theorem conditionNodes_of_test {tree : Tree} (own : tree.skeleton = .test tree) :
    tree.conditionNodes = [tree] := by
  cases tree with
  | leaf value => rfl
  | node parts =>
      cases parts with
      | nil => rfl
      | cons tag parts =>
          rcases skeleton_eq_test_iff.mp own with ⟨isAnd, isOr, isNot⟩
          cases parts with
          | nil => simp [conditionNodes, isWord_iff, isAnd, isOr]
          | cons operand rest =>
              have isNot : tag ≠ word "NOT" := fun same => absurd (isNot same) nofun
              simp [conditionNodes, isWord_iff, isAnd, isOr, isNot]

/-- A tag without meaning is reported, and the constant has none in print. -/
theorem writtenTest_of_other {tree tag : Tree} (tagged : tree.tag = .ok tag)
    (isCompare : tag ≠ word "COMPARE") (isNot : tag ≠ word "NOT") :
    tree.writtenTest = .error (tag.unknown .condition) := by
  rw [Ne, ← isWord_iff] at isCompare isNot
  rw [writtenTest, test, tagged, ok_bind, if_neg isCompare]
  by_cases isTrue : tag.isWord "TRUE" = true
  · obtain rfl := isWord_iff.mp isTrue
    rfl
  · rw [if_neg isTrue, if_neg isNot]
    rfl

/-- The tag of a leaf is a single character. -/
theorem ne_word_of_tag_leaf {value : Scalar} {tag : Tree} (tagged : (leaf value).tag = .ok tag)
    {text : String} (long : 1 < text.length) : tag ≠ word text := by
  cases value with
  | word own =>
      rw [Tree.tag, parts, ok_bind] at tagged
      cases chars : own.toList with
      | nil =>
          rw [chars] at tagged
          cases tagged
      | cons c cs =>
          rw [chars] at tagged
          obtain rfl : word c.toString = tag := Except.ok.inj tagged
          rintro same
          obtain rfl : c.toString = text := Scalar.word.inj (leaf.inj same)
          exact absurd long (by simp)
  | _ => cases tagged

theorem printedCondition_of_test {tree : Tree} (own : tree.skeleton = .test tree) (outer : Int) :
    tree.printedCondition outer = tree.writtenTest := by
  cases tree with
  | leaf value =>
      rw [printedCondition]
      cases tagged : (leaf value).tag with
      | error fault =>
          rw [writtenTest, test, tagged]
          rfl
      | ok tag =>
          have isCompare : tag ≠ word "COMPARE" := ne_word_of_tag_leaf tagged (by decide)
          have isNot : tag ≠ word "NOT" := ne_word_of_tag_leaf tagged (by decide)
          rw [writtenTest_of_other tagged isCompare isNot]
          rfl
  | node parts =>
      cases parts with
      | nil => rfl
      | cons tag parts =>
          rcases skeleton_eq_test_iff.mp own with ⟨isAnd, isOr, isNot⟩
          have tagged : (node (tag :: parts)).tag = .ok tag := rfl
          by_cases isCompare : tag = word "COMPARE"
          · subst isCompare
            rcases parts with _ | ⟨symbol, _ | ⟨state, _ | ⟨bound, _ | ⟨more, rest⟩⟩⟩⟩ <;> rfl
          by_cases isNegation : tag = word "NOT"
          · obtain rfl := isNot isNegation
            subst isNegation
            rfl
          · rw [writtenTest_of_other tagged isCompare isNegation, printedCondition.eq_def]
            simp only [isWord_iff, isCompare, isNegation, isAnd, isOr, if_false]
            rfl

/-! ## Nodes with operands -/

theorem conditionNodesList_eq (trees : List Tree) :
    conditionNodesList trees = trees.flatMap conditionNodes := by
  induction trees with
  | nil => rfl
  | cons tree trees ih => rw [conditionNodesList, ih, List.flatMap_cons]

section Operands

variable (outer : Int) (operand : Tree) (rest operands : List Tree)

theorem printedCondition_not :
    (node (word "NOT" :: operand :: rest)).printedCondition outer = (do
      return Condition.enclosed (3 ≤ outer) ("!" ++ (← operand.printedCondition 2))) :=
  rfl

theorem printedCondition_and :
    (node (word "AND" :: operands)).printedCondition outer = (do
      return Condition.enclosed (2 ≤ outer)
        (" & ".intercalate (← printedConditions 2 operands))) := by
  cases operands <;> rfl

theorem printedCondition_or :
    (node (word "OR" :: operands)).printedCondition outer = (do
      return Condition.enclosed (1 ≤ outer)
        (" | ".intercalate (← printedConditions 1 operands))) := by
  cases operands <;> rfl

theorem conditionNodes_not :
    (node (word "NOT" :: operand :: rest)).conditionNodes =
      node (word "NOT" :: operand :: rest) :: operand.conditionNodes :=
  rfl

theorem conditionNodes_and :
    (node (word "AND" :: operands)).conditionNodes =
      node (word "AND" :: operands) :: operands.flatMap conditionNodes := by
  rw [← conditionNodesList_eq]
  cases operands <;> rfl

theorem conditionNodes_or :
    (node (word "OR" :: operands)).conditionNodes =
      node (word "OR" :: operands) :: operands.flatMap conditionNodes := by
  rw [← conditionNodesList_eq]
  cases operands <;> rfl

end Operands

/-! ## One text on the stack -/

private theorem printedConditions_skeletons {trees : List Tree} {outer : Int}
    (each : ∀ tree ∈ trees,
      tree.printedCondition outer = tree.skeleton.printedBy writtenTest outer) :
    printedConditions outer trees = Condition.printedAllBy writtenTest outer (skeletons trees) := by
  induction trees with
  | nil => rfl
  | cons tree trees ih =>
      rcases List.forall_mem_cons.mp each with ⟨first, others⟩
      rw [printedConditions, skeletons, Condition.printedAllBy, first, ih others]

/-- The recursion on a tree is the recursion on its skeleton. -/
theorem printedCondition_eq_printedBy (tree : Tree) (outer : Int) :
    tree.printedCondition outer = tree.skeleton.printedBy writtenTest outer := by
  induction tree using inductOnCondition generalizing outer with
  | test tree own => rw [printedCondition_of_test own, own, Condition.printedBy]
  | negation operand rest ih =>
      rw [printedCondition_not, ih]
      rfl
  | conjunction operands ih =>
      rw [printedCondition_and, skeleton_and, Condition.printedBy,
        printedConditions_skeletons fun operand member => ih operand member 2]
  | disjunction operands ih =>
      rw [printedCondition_or, skeleton_or, Condition.printedBy,
        printedConditions_skeletons fun operand member => ih operand member 1]

/-- A node that is no conjunction or disjunction without operands. -/
def HasOperands (tree : Tree) : Prop :=
  tree ≠ node [word "AND"] ∧ tree ≠ node [word "OR"]

private theorem branching_skeletons {trees : List Tree} (nonempty : trees ≠ [])
    (each : ∀ tree ∈ trees, (∀ part ∈ tree.conditionNodes, part.HasOperands) →
      tree.skeleton.Branching 1)
    (filled : ∀ part ∈ trees.flatMap conditionNodes, part.HasOperands) :
    1 ≤ (skeletons trees).length ∧ Condition.BranchingAll 1 (skeletons trees) := by
  rw [skeletons_eq, List.length_map, Condition.branchingAll_iff, List.forall_mem_map]
  constructor
  · exact List.length_pos_iff.mpr nonempty
  · intro tree member
    apply each tree member
    exact fun part inTree => filled part (List.mem_flatMap.mpr ⟨tree, member, inTree⟩)

theorem branching_of_hasOperands {tree : Tree}
    (filled : ∀ part ∈ tree.conditionNodes, part.HasOperands) : tree.skeleton.Branching 1 := by
  induction tree using inductOnCondition with
  | test tree own =>
      rw [own]
      trivial
  | negation operand rest ih =>
      rw [conditionNodes_not, List.forall_mem_cons] at filled
      exact ih filled.2
  | conjunction operands ih =>
      rw [conditionNodes_and, List.forall_mem_cons] at filled
      rcases filled with ⟨⟨notEmpty, _⟩, filled⟩
      rw [skeleton_and]
      exact branching_skeletons (fun none => notEmpty (by rw [none])) ih filled
  | disjunction operands ih =>
      rw [conditionNodes_or, List.forall_mem_cons] at filled
      rcases filled with ⟨⟨_, notEmpty⟩, filled⟩
      rw [skeleton_or]
      exact branching_skeletons (fun none => notEmpty (by rw [none])) ih filled

/-! ## The first fault -/

/-- What is wrong with a node in the place of a condition, whatever its operands are. -/
def conditionFault? (tree : Tree) : Option TreeFault :=
  match tree.skeleton with
  | .test test => fault? test.writtenTest
  | _ => none

theorem conditionFault?_of_test {tree : Tree} (own : tree.skeleton = .test tree) :
    tree.conditionFault? = fault? tree.writtenTest := by
  rw [conditionFault?, own]

theorem IsCondition.conditionFault?_eq_none {tree : Tree} (condition : tree.IsCondition) :
    tree.conditionFault? = none := by
  cases condition with
  | comparison symbol state bound => rfl
  | negation operand rest => rfl
  | conjunction operands => rw [conditionFault?, skeleton_and]
  | disjunction operands => rw [conditionFault?, skeleton_or]

/-- A node with another tag is at fault because of its tag. -/
theorem conditionFault?_of_other {tree : Tree} {tag : String} (tagged : tree.tag = .ok (word tag))
    (other : tag ∉ ["COMPARE", "NOT", "AND", "OR"]) :
    tree.conditionFault? = some (.unknown (.condition tag)) := by
  simp only [List.mem_cons, List.not_mem_nil, or_false, not_or] at other
  rcases other with ⟨isCompare, isNot, isAnd, isOr⟩
  have differs {text : String} (ne : tag ≠ text) : word tag ≠ word text := by
    intro same
    cases same
    exact ne rfl
  have own : tree.skeleton = .test tree := by
    cases tree with
    | leaf value => rfl
    | node parts =>
        cases parts with
        | nil => rfl
        | cons first parts =>
            obtain rfl : first = word tag := Except.ok.inj tagged
            exact skeleton_eq_test_iff.mpr
              ⟨differs isAnd, differs isOr, fun same => absurd same (differs isNot)⟩
  rw [conditionFault?_of_test own, writtenTest_of_other tagged (differs isCompare) (differs isNot)]
  rfl

private theorem fault?_printAll_visits {trees : List Tree} {outer : Int}
    (each : ∀ tree ∈ trees, ∀ texts,
      fault? (Condition.printAll writtenTest [.visit tree.skeleton outer] texts) =
        tree.conditionNodes.findSome? conditionFault?) (texts : List String) :
    fault? (Condition.printAll writtenTest ((skeletons trees).map (.visit · outer)) texts) =
      (trees.flatMap conditionNodes).findSome? conditionFault? := by
  induction trees generalizing texts with
  | nil =>
      rw [skeletons, List.map_nil, Condition.printAll]
      rfl
  | cons tree trees ih =>
      rcases List.forall_mem_cons.mp each with ⟨first, others⟩
      rw [skeletons, List.map_cons, ← List.singleton_append, Condition.printAll_append,
        fault?_bind (ih others), first, List.flatMap_cons, List.findSome?_append]

/-- Putting a node together never fails. -/
private theorem fault?_printAll_joined {trees : List Tree} {strength : Int}
    (each : ∀ tree ∈ trees, ∀ texts,
      fault? (Condition.printAll writtenTest [.visit tree.skeleton strength] texts) =
        tree.conditionNodes.findSome? conditionFault?)
    (separator : String) (count : Nat) (outer : Int) (texts : List String) :
    fault? (Condition.printAll writtenTest
      ((skeletons trees).map (.visit · strength) ++ [.join separator strength count outer]) texts) =
        (trees.flatMap conditionNodes).findSome? conditionFault? := by
  have joined (texts : List String) : fault? (Condition.printAll writtenTest
      [.join separator strength count outer] texts) = none := by
    rw [Condition.printAll, Condition.printAll]
    rfl
  rw [Condition.printAll_append, fault?_bind joined, fault?_printAll_visits each, Option.or_none]

/-- The printer fails at the first node in the place of a condition that is at fault. -/
theorem fault?_printAll_visit (tree : Tree) (outer : Int) (texts : List String) :
    fault? (Condition.printAll writtenTest [.visit tree.skeleton outer] texts) =
      tree.conditionNodes.findSome? conditionFault? := by
  induction tree using inductOnCondition generalizing outer texts with
  | test tree own =>
      have done (text : String) :
          fault? (Condition.printAll writtenTest [] (text :: texts)) = none := by
        rw [Condition.printAll]
        rfl
      rw [own, Condition.printAll, fault?_bind done, Option.or_none, conditionNodes_of_test own,
        List.findSome?_singleton, conditionFault?_of_test own]
  | negation operand rest ih =>
      -- leaving a negation never fails, whatever the operand has left on the stack
      have negated (texts : List String) :
          fault? (Condition.printAll writtenTest [.negate outer] texts) = none := by
        rw [Condition.printAll, Condition.printAll]
        rfl
      rw [skeleton_not, Condition.printAll, ← List.singleton_append, Condition.printAll_append,
        fault?_bind negated, Option.or_none, ih, conditionNodes_not, List.findSome?_cons,
        (IsCondition.negation operand rest).conditionFault?_eq_none]
  | conjunction operands ih =>
      rw [skeleton_and, Condition.printAll,
        fault?_printAll_joined fun operand member => ih operand member 2, conditionNodes_and,
        List.findSome?_cons, (IsCondition.conjunction operands).conditionFault?_eq_none]
  | disjunction operands ih =>
      rw [skeleton_or, Condition.printAll,
        fault?_printAll_joined fun operand member => ih operand member 1, conditionNodes_or,
        List.findSome?_cons, (IsCondition.disjunction operands).conditionFault?_eq_none]

theorem fault?_printCondition (tree : Tree) (outer : Int) :
    fault? (tree.printCondition outer) = tree.conditionNodes.findSome? conditionFault? := by
  rw [printCondition, Condition.print, fault?_map, fault?_printAll_visit]

/-- What is printed of conditions has no fault. -/
theorem findSome?_conditionFault?_of_isCondition {trees : List Tree}
    (conditions : ∀ part ∈ trees, part.IsCondition) : trees.findSome? conditionFault? = none := by
  rw [List.findSome?_eq_none_iff]
  exact fun part member => (conditions part member).conditionFault?_eq_none

/-! ## Conditions that were read -/

section Read

variable {σ : Type} [ToString σ] {state : σ → Tree}

private theorem printedConditions_trees {cs : List (Condition (CountTest σ))} {outer : Int}
    (each : ∀ c ∈ cs, (c.tree state).printedCondition outer =
      c.printedBy (fun test => .ok test.text) outer) :
    printedConditions outer (ofConditions (CountTest.tree state) cs) =
      Condition.printedAllBy (fun test => .ok test.text) outer cs := by
  induction cs with
  | nil => rfl
  | cons c cs ih =>
      rcases List.forall_mem_cons.mp each with ⟨first, others⟩
      rw [ofConditions, printedConditions, Condition.printedAllBy, ih others, ← first]
      rfl

theorem printedCondition_tree (spelled : ∀ s, (state s).text = toString s)
    (c : Condition (CountTest σ)) (outer : Int) :
    (c.tree state).printedCondition outer = c.printedBy (fun test => .ok test.text) outer := by
  induction c using Condition.inductOn generalizing outer with
  | test a =>
      rw [Condition.printedBy, CountTest.text, ← spelled]
      rfl
  | always => rfl
  | not c ih =>
      rw [Condition.printedBy, ← ih]
      rfl
  | all cs ih =>
      rw [Condition.printedBy, ← printedConditions_trees fun c member => ih c member 2]
      exact printedCondition_and outer _
  | any cs ih =>
      rw [Condition.printedBy, ← printedConditions_trees fun c member => ih c member 1]
      exact printedCondition_or outer _

end Read

/-! ## Printing is recursion -/

/-- If every conjunction and disjunction of a tree has an operand, the printer ends with a single
text on its stack, the one that the recursion gives, or it fails as the recursion does; and it
only fails if the tree is no condition. If the first node that is none in the place of a
condition has another tag, then this tag is reported. -/
theorem printing_recursive (outer : Int) :
    (∀ tree : Tree, (∀ part ∈ tree.conditionNodes, part.HasOperands) →
      Condition.printAll writtenTest [.visit tree.skeleton outer] [] =
          (tree.printedCondition outer).map ([·]) ∧
        tree.printCondition outer = tree.printedCondition outer ∧
        ((∀ part ∈ tree.conditionNodes, part.IsCondition) →
          ∃ text, tree.printedCondition outer = .ok text)) ∧
    -- a tag without meaning, also in a tree with nodes that lack operands
    (∀ (tree other : Tree) (before after : List Tree) (tag : String),
      tree.conditionNodes = before ++ other :: after → (∀ part ∈ before, part.IsCondition) →
      other.tag = .ok (word tag) → tag ∉ ["COMPARE", "NOT", "AND", "OR"] →
      tree.printCondition outer = .error (.unknown (.condition tag))) ∧
    -- the same for a condition that is no tree, whatever stands for its states
    ∀ {σ : Type} [ToString σ] (state : σ → Tree), (∀ s, (state s).text = toString s) →
      ∀ c : Condition (CountTest σ), c.Branching 1 →
        Condition.printAll (fun test => .ok test.text) [.visit c outer] [] =
            ((c.tree state).printedCondition outer).map ([·]) ∧
          c.print (fun test => .ok test.text) outer = (c.tree state).printedCondition outer := by
  constructor
  · intro tree filled
    have branching := branching_of_hasOperands filled
    have recursive := printedCondition_eq_printedBy tree outer
    have printed : tree.printCondition outer = tree.printedCondition outer := by
      rw [recursive, printCondition, Condition.print_eq_printedBy branching]
    refine ⟨?_, printed, ?_⟩
    · rw [recursive]
      exact Condition.printAll_visit branching outer []
    · intro conditions
      rw [← printed, ← fault?_eq_none_iff, fault?_printCondition]
      exact findSome?_conditionFault?_of_isCondition conditions
  constructor
  · intro tree other before after tag listed conditions tagged unknown
    rw [← fault?_eq_some_iff, fault?_printCondition, listed, List.findSome?_append,
      findSome?_conditionFault?_of_isCondition conditions, List.findSome?_cons,
      conditionFault?_of_other tagged unknown]
    rfl
  · intro σ _ state spelled c branching
    rw [printedCondition_tree spelled]
    exact ⟨Condition.printAll_visit branching outer [],
      Condition.print_eq_printedBy branching outer⟩

/-- A negation in the place of a negation has parentheses, and so has a disjunction in a
conjunction. Of two tags without meaning the first is reported, behind a conjunction without
operands. -/
theorem printing_recursive_nested :
    let c : Condition (CountTest String) := .not (.all [.test ⟨.equal, "A", 1⟩,
      .any [.test ⟨.above, "B", 2⟩, .test ⟨.below, "C", 3⟩]])
    let text := "(!(neighborhood(A) == 1 & (neighborhood(B) > 2 | neighborhood(C) < 3)))"
    let wrong := node [word "OR", node [word "AND"], node [word "NOT", node [word "XOR"]],
      node [word "NOR"]]
    (∀ part ∈ (c.tree word).conditionNodes, part.HasOperands ∧ part.IsCondition) ∧
      Condition.printAll writtenTest [.visit (c.tree word).skeleton 3] [] = .ok [text] ∧
      (c.tree word).printCondition 3 = .ok text ∧
      c.Branching 1 ∧ c.print (fun test => .ok test.text) 3 = .ok text ∧
      wrong.printCondition 3 = .error (.unknown (.condition "XOR")) := by
  intro c text wrong
  have filled (tag operand : Tree) (rest : List Tree) :
      (node (tag :: operand :: rest)).HasOperands := by simp [HasOperands]
  have fine : ∀ part ∈ (c.tree word).conditionNodes, part.HasOperands ∧ part.IsCondition := by
    have listed : (c.tree word).conditionNodes = [c.tree word, _, _, _, _, _] := rfl
    simp only [listed, List.forall_mem_cons]
    exact ⟨⟨filled _ _ _, .negation _ _⟩, ⟨filled _ _ _, .conjunction _⟩,
      ⟨filled _ _ _, .comparison _ _ _⟩, ⟨filled _ _ _, .disjunction _⟩,
      ⟨filled _ _ _, .comparison _ _ _⟩, ⟨filled _ _ _, .comparison _ _ _⟩, nofun⟩
  have sound : ∀ part ∈ [wrong, node [word "AND"], node [word "NOT", node [word "XOR"]]],
      part.IsCondition := by
    simp only [List.forall_mem_cons]
    exact ⟨.disjunction _, .conjunction _, .negation _ _, nofun⟩
  have branching : c.Branching 1 :=
    ⟨by decide, trivial, ⟨by decide, trivial, trivial, trivial⟩, trivial⟩
  rcases printing_recursive 3 with ⟨trees, faults, conditions⟩
  rcases trees (c.tree word) fun part member => (fine part member).1 with
    ⟨stack, printed, succeeds⟩
  rcases succeeds fun part member => (fine part member).2 with ⟨own, recursive⟩
  obtain rfl : own = text := Except.ok.inj (recursive.symm.trans rfl)
  have read := (conditions word (fun _ => rfl) c branching).2
  rw [recursive] at stack printed read
  refine ⟨fine, stack, printed, branching, read, ?_⟩
  exact faults wrong (node [word "XOR"]) _ [node [word "NOR"]] "XOR" rfl sound rfl (by decide)

end Cellular.Tree
