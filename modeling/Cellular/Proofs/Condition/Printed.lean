import Cellular.Condition.Printer
import Cellular.Proofs.Condition.Truth
import Cellular.Proofs.Outcome

/-!
# The written form of a condition

The printer keeps a stack, but what it prints of a condition depends on the condition alone:
every node is printed from the written forms of its operands, as long as it has some. If a
test has no written form, neither has the condition.
-/

namespace Cellular.Condition

variable {α β : Type}

mutual

/-- The written form of a condition at a place that asks for the given strength. -/
def printed (text : α → String) (outer : Int) : Condition α → String
  | .test a => text a
  | .always => ""
  | .not c => enclosed (3 ≤ outer) ("!" ++ printed text 2 c)
  | .all cs => enclosed (2 ≤ outer) (" & ".intercalate (printedAll text 2 cs))
  | .any cs => enclosed (1 ≤ outer) (" | ".intercalate (printedAll text 1 cs))

/-- The written forms of the operands of a node. -/
def printedAll (text : α → String) (outer : Int) : List (Condition α) → List String
  | [] => []
  | c :: cs => printed text outer c :: printedAll text outer cs

end

mutual

/-- The written form of a condition whose tests may have none. The constant has none. -/
def printedBy (leaf : α → Except TreeFault String) (outer : Int) :
    Condition α → Except TreeFault String
  | .test a => leaf a
  | .always => throw (.unknown (.condition "TRUE"))
  | .not c => do return enclosed (3 ≤ outer) ("!" ++ (← printedBy leaf 2 c))
  | .all cs => do return enclosed (2 ≤ outer) (" & ".intercalate (← printedAllBy leaf 2 cs))
  | .any cs => do return enclosed (1 ≤ outer) (" | ".intercalate (← printedAllBy leaf 1 cs))

/-- The written forms of the operands of a node, if all of them have one. -/
def printedAllBy (leaf : α → Except TreeFault String) (outer : Int) :
    List (Condition α) → Except TreeFault (List String)
  | [] => return []
  | c :: cs => do return (← printedBy leaf outer c) :: (← printedAllBy leaf outer cs)

end

theorem printedAllBy_eq (leaf : α → Except TreeFault String) (outer : Int)
    (cs : List (Condition α)) : printedAllBy leaf outer cs = cs.mapM (printedBy leaf outer) := by
  induction cs with
  | nil => rfl
  | cons c cs ih => rw [printedAllBy, ih, List.mapM_cons]

theorem printedAll_eq (text : α → String) (outer : Int) (cs : List (Condition α)) :
    printedAll text outer cs = cs.map (printed text outer) := by
  induction cs with
  | nil => rfl
  | cons c cs ih => rw [printedAll, ih, List.map_cons]

mutual

/-- A condition whose written form exists: it is built from tests, and every node has
operands. -/
def Printable : Condition α → Prop
  | .test _ => True
  | .always => False
  | .not c => Printable c
  | .all cs | .any cs => cs ≠ [] ∧ PrintableAll cs

/-- The same for every operand of a list. -/
def PrintableAll : List (Condition α) → Prop
  | [] => True
  | c :: cs => Printable c ∧ PrintableAll cs

end

theorem printableAll_iff {cs : List (Condition α)} :
    PrintableAll cs ↔ ∀ c ∈ cs, Printable c := by
  induction cs with
  | nil => simp [PrintableAll]
  | cons c cs ih => rw [PrintableAll, ih, List.forall_mem_cons]

theorem Printable.branching {c : Condition α} (printable : c.Printable) : c.Branching 1 := by
  induction c using inductOn with
  | test a => trivial
  | always => trivial
  | not c ih => exact ih printable
  | all cs ih | any cs ih =>
      rcases printable with ⟨nonempty, operands⟩
      constructor
      · exact List.length_pos_iff.mpr nonempty
      · apply branchingAll_iff.mpr
        exact fun c member => ih c member (printableAll_iff.mp operands c member)

theorem printedBy_eq_ok {leaf : α → Except TreeFault String} {text : α → String}
    (leaf_eq : ∀ a, leaf a = .ok (text a)) {c : Condition α} (printable : c.Printable)
    (outer : Int) : c.printedBy leaf outer = .ok (c.printed text outer) := by
  induction c using inductOn generalizing outer with
  | test a => exact leaf_eq a
  | always => exact printable.elim
  | not c ih => rw [printedBy, ih printable, printed, ok_bind, pure_eq_ok]
  | all cs ih | any cs ih =>
      rcases printable with ⟨_, operands⟩
      rw [printableAll_iff] at operands
      have each (strength : Int) := mapM_eq_ok_map fun c member =>
        ih c member (operands c member) strength
      simp only [printedBy, printedAllBy_eq, each, ok_bind, pure_eq_ok, printed, printedAll_eq]

section Stack

variable {leaf : α → Except TreeFault String}

/-- Operands are visited as they are, without their membership in the list. -/
theorem attach_visits (cs : List (Condition α)) (outer : Int) :
    cs.attach.map (fun x => match x with | ⟨c, _⟩ => Task.visit c outer) =
      cs.map (Task.visit · outer) :=
  @List.attach_map_val _ _ cs (Task.visit · outer)

/-- Tasks are done one after the other: the later ones find the texts that are left by the
earlier ones. -/
theorem printAll_append (first second : List (Task α)) (texts : List String) :
    printAll leaf (first ++ second) texts =
      printAll leaf first texts >>= printAll leaf second := by
  -- every step works on the first task and on the texts, and only adds tasks in front
  fun_induction printAll leaf first texts with
  | case1 texts => rfl
  | case2 a outer tasks texts ih =>
      rw [List.cons_append, printAll, bind_assoc]
      exact bind_congr ih
  | case3 c outer tasks texts ih =>
      rw [List.cons_append, printAll]
      exact ih
  | case4 cs outer tasks texts ih | case5 cs outer tasks texts ih =>
      rw [attach_visits, List.append_assoc] at ih
      rw [List.cons_append, printAll]
      exact ih
  | case6 outer tasks texts =>
      rw [List.cons_append, printAll]
      rfl
  | case7 outer tasks texts ih =>
      rw [List.cons_append, printAll]
      exact ih
  | case8 separator strength count outer tasks texts taken ih =>
      rw [List.cons_append, printAll]
      exact ih

private theorem printAll_visits {cs : List (Condition α)} {outer : Int}
    (each : ∀ c ∈ cs, ∀ texts, printAll leaf [.visit c outer] texts =
      (c.printedBy leaf outer).map (· :: texts)) (texts : List String) :
    printAll leaf (cs.map (.visit · outer)) texts =
      (printedAllBy leaf outer cs).map (·.reverse ++ texts) := by
  induction cs generalizing texts with
  | nil =>
      rw [List.map_nil, printAll]
      rfl
  | cons c cs ih =>
      rcases List.forall_mem_cons.mp each with ⟨first, others⟩
      rw [List.map_cons, ← List.singleton_append, printAll_append, first, printedAllBy]
      cases c.printedBy leaf outer with
      | error fault => rfl
      | ok text =>
          rw [Except.map, ok_bind, ih others, ok_bind]
          cases printedAllBy leaf outer cs with
          | error fault => rfl
          | ok printed => simp [Except.map]

private theorem printAll_join (separator : String) (strength outer : Int)
    {operands : List String} (nonempty : operands ≠ []) (texts : List String) :
    printAll leaf [.join separator strength operands.length outer] (operands.reverse ++ texts) =
      .ok (enclosed (strength ≤ outer) (separator.intercalate operands) :: texts) := by
  have count : operands.length ≠ 0 := fun none => nonempty (List.length_eq_zero_iff.mp none)
  have taken : (operands.reverse ++ texts).take operands.length = operands.reverse :=
    List.take_left' List.length_reverse
  have left : (operands.reverse ++ texts).drop operands.reverse.length = texts :=
    List.drop_left
  rw [printAll]
  simp only [if_neg count, taken, left, List.reverse_reverse, printAll]

/-- Visiting the operands of a node leaves as many texts as the node takes back. -/
private theorem printAll_joined {cs : List (Condition α)} (nonempty : cs ≠ []) {strength : Int}
    (each : ∀ c ∈ cs, ∀ texts, printAll leaf [.visit c strength] texts =
      (c.printedBy leaf strength).map (· :: texts))
    (separator : String) (outer : Int) (texts : List String) :
    printAll leaf (cs.map (.visit · strength) ++ [.join separator strength cs.length outer]) texts =
      (printedAllBy leaf strength cs).map fun operands =>
        enclosed (strength ≤ outer) (separator.intercalate operands) :: texts := by
  rw [printAll_append, printAll_visits each]
  cases printed : printedAllBy leaf strength cs with
  | error fault => rfl
  | ok operands =>
      rw [printedAllBy_eq] at printed
      have length : cs.length = operands.length := (mapM_eq_ok_iff.mp printed).length_eq
      have some_operand : operands ≠ [] := by
        rwa [← List.length_pos_iff, ← length, List.length_pos_iff]
      rw [length]
      exact printAll_join separator strength outer some_operand texts

/-- If every node has an operand, visiting a condition adds its written form to the stack, and
nothing else. -/
theorem printAll_visit {c : Condition α} (branching : c.Branching 1) (outer : Int)
    (texts : List String) :
    printAll leaf [.visit c outer] texts = (c.printedBy leaf outer).map (· :: texts) := by
  induction c using inductOn generalizing outer texts with
  | test a =>
      rw [printAll, printedBy]
      cases leaf a with
      | error fault => rfl
      | ok text =>
          rw [ok_bind, printAll]
          rfl
  | always =>
      rw [printAll]
      rfl
  | not c ih =>
      rw [printAll, ← List.singleton_append, printAll_append, ih branching, printedBy]
      cases c.printedBy leaf 2 with
      | error fault => rfl
      | ok text =>
          rw [Except.map, ok_bind, printAll, printAll]
          rfl
  | all cs ih | any cs ih =>
      rcases branching with ⟨nonempty, operands⟩
      rw [branchingAll_iff] at operands
      have each (strength : Int) : ∀ c ∈ cs, ∀ texts, printAll leaf [.visit c strength] texts =
          (c.printedBy leaf strength).map (· :: texts) :=
        fun c member => ih c member (operands c member) strength
      rw [printAll, printAll_joined (List.length_pos_iff.mp nonempty) (each _), printedBy]
      cases printedAllBy leaf _ cs <;> rfl

theorem print_eq_printedBy {c : Condition α} (branching : c.Branching 1) (outer : Int) :
    c.print leaf outer = c.printedBy leaf outer := by
  rw [print, printAll_visit branching]
  cases c.printedBy leaf outer <;> rfl

theorem print_eq {text : α → String} (leaf_eq : ∀ a, leaf a = .ok (text a)) {c : Condition α}
    (printable : c.Printable) (outer : Int) : c.print leaf outer = .ok (c.printed text outer) :=
  (print_eq_printedBy printable.branching outer).trans (printedBy_eq_ok leaf_eq printable outer)

end Stack

end Cellular.Condition
