import Cellular.Proofs.Source.RoundTrip
import Cellular.Proofs.Tree.Conditions

/-!
# Printing trees of programs

The tree of a program that can be read is printed like the program. Every part of it has the
tag and the parts that printing asks for.
-/

namespace Cellular

/-- If the tree of every item is printed, so are all of them. -/
private theorem mapM_trees {α β : Type} {print : Tree → Except TreeFault β} {tree : α → Tree}
    {text : α → β} {items : List α}
    (each : ∀ item ∈ items, print (tree item) = .ok (text item)) :
    (items.map tree).mapM print = .ok (items.map text) := by
  rw [List.mapM_map]
  exact mapM_eq_ok_map each

theorem Environment.printEnvironment_tree (space : Environment) :
    (space.tree Name.word).printEnvironment = .ok space.text := by
  rcases space with ⟨rank, sizes⟩
  have lines : (sizes.map fun size => Tree.node [size.1.word, .whole size.2]).mapM
      Tree.printSize = .ok (sizes.map fun size => (size.1.text, toString size.2)) :=
    mapM_trees fun _ _ => rfl
  cases sizes with
  | nil => rfl
  | cons first rest =>
      change environmentText (toString rank) <$> List.mapM Tree.printSize _ = _
      rw [lines]
      rfl

theorem OffsetRule.printOffset_tree (rule : OffsetRule) :
    (rule.tree Name.word).printOffset = .ok rule.text :=
  rfl

theorem Attribute.printAttribute_tree (own : Attribute) :
    (own.tree Name.word).printAttribute = .ok own.text := by
  cases own <;> rfl

theorem StateEntry.printEntry_tree (entry : StateEntry) :
    (entry.tree Name.word).printEntry = .ok entry.text := by
  rcases entry with ⟨name, attributes⟩
  have texts := mapM_trees fun own (_ : own ∈ attributes) => own.printAttribute_tree
  cases attributes with
  | nil => rfl
  | cons first rest =>
      change stateText name.text <$> List.mapM Tree.printAttribute _ = _
      rw [texts]
      rfl

theorem Rule.printRule_tree {rule : Rule Name} (printable : rule.condition.Printable) :
    (rule.tree Name.word).printRule = .ok rule.printed := by
  have condition : rule.condition.print (fun test => .ok test.text) 0 = .ok _ :=
    Condition.print_eq (fun _ => rfl) printable 0
  rw [tree, Tree.printRule, Tree.threeOperands, Tree.parts]
  simp only [ok_bind, pure_eq_ok, Condition.printCondition_tree printable, condition]
  rfl

/-- The tree of a value that can be read is printed like the value. -/
theorem Value.Readable.printValue_tree {value : Value} (readable : value.Readable) :
    (value.tree Name.word).printValue = .ok value.printed := by
  cases value with
  | environment space => exact space.printEnvironment_tree
  | neighborhood shape =>
      cases shape with
      | moore => rfl
      | vonNeumann => rfl
      | custom rules =>
          have texts := mapM_trees fun rule (_ : rule ∈ rules) => rule.printOffset_tree
          change offsetsText <$> List.mapM Tree.printOffset _ = _
          rw [List.tail_cons, texts]
          rfl
  | boundary edge =>
      cases edge with
      | void => rfl
      | wrap => rfl
      | static state => cases state <;> rfl
  | states block =>
      have texts := mapM_trees fun entry (_ : entry ∈ block) => entry.printEntry_tree
      change blockText <$> List.mapM Tree.printEntry _ = _
      rw [List.tail_cons, texts]
      rfl
  | rules block =>
      have texts := mapM_trees fun rule member =>
        Rule.printRule_tree (readable rule member).condition.printable
      change rulesText <$> List.mapM Tree.printRule _ = _
      rw [List.tail_cons, texts]
      rfl

theorem Declaration.Readable.printDeclaration_tree {declaration : Declaration}
    (readable : declaration.Readable) :
    (declaration.tree Name.word).printDeclaration = .ok declaration.printed := by
  rw [tree, Tree.printDeclaration, Tree.triple, Tree.parts]
  simp only [ok_bind, pure_eq_ok, readable.value.printValue_tree]
  rfl

/-- The tree of a program that can be read is printed like the program. -/
theorem printProgram_programTree {program : List Declaration}
    (readable : ∀ declaration ∈ program, declaration.Readable) :
    (programTree Name.word program).printProgram =
      .ok (programText (program.map Declaration.printed)) := by
  have texts := mapM_trees fun declaration member =>
    (readable declaration member).printDeclaration_tree
  rw [programTree, Tree.printProgram, Tree.parts, ok_bind, texts]
  rfl

end Cellular
