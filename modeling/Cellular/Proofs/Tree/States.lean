import Cellular.Proofs.Tree.Findings
import Cellular.Proofs.Validation.States

/-!
# States as trees

The states of a tree are read one by one like those of a block, and the name of the default
state is kept beside them. It is the name of a state that was declared, so that no later state
is taken for the default, and the states always make a registry: they are numbered in their
order, and at most one of them is the default.
-/

namespace Cellular

namespace Tree

/-- The name of the default state as a tree, which is nothing if there is none. -/
def defaultTree (registry : Registry) : Tree :=
  (registry.default?.map fun state => word state.name).getD missing

/-! ## Attributes -/

section Attributes

variable (states : OpenRegistry) (state : Name)

/-- A block while the attributes of a state are read: the state is the default as soon as it
is marked, if no other is. -/
def openBlock (attributes : OpenAttributes) : Block where
  declared := states.declared.map Name.word
  default := if attributes.marked && states.registry.default?.isNone then state.word
    else defaultTree states.registry
  states := states.registry.states

/-- The attributes of a state without their problems. -/
def openAttributes (attributes : OpenAttributes) : Attributes :=
  ⟨attributes.marked, attributes.table⟩

/-- A block of states that were read. -/
def closedBlock : Block where
  declared := states.declared.map Name.word
  default := defaultTree states.registry
  states := states.registry.states

theorem addAttribute_tree (attributes : OpenAttributes) (mark : Attribute) :
    ∃ found, Finds (addAttribute state.word (openBlock states state attributes)
        (openAttributes attributes) (mark.tree Name.word)) found
        (openBlock states state (attributes.add states.registry state mark),
          openAttributes (attributes.add states.registry state mark)) ∧
      (attributes.add states.registry state mark).problems = attributes.problems ++ found := by
  rcases attributes with ⟨marked, table, problems⟩
  cases mark with
  | defaultMark =>
      have isMark : (Attribute.tree Name.word .defaultMark).isDefaultMark = true := rfl
      rw [addAttribute, isMark, if_pos rfl]
      cases marked with
      | true =>
          exact ⟨[.markedTwice state],
            (Finds.problems [.markedTwice state]).returning fun _ => _, rfl⟩
      | false =>
          cases default : states.registry.default? with
          | none =>
              have free : defaultTree states.registry = missing := by
                rw [defaultTree, default]
                rfl
              simp only [openBlock, OpenAttributes.add, default, free, Option.isNone_none]
              exact ⟨[], Finds.nothing _, rfl⟩
          | some first =>
              have taken : defaultTree states.registry = word first.name := by
                rw [defaultTree, default]
                rfl
              simp only [openBlock, OpenAttributes.add, default, taken, Option.isNone_some]
              exact ⟨[.secondDefault first.name state],
                (Finds.problems [.secondDefault first.name state]).returning fun _ => _, rfl⟩
  | keyed key token =>
      have unmarked : (Attribute.tree Name.word (.keyed key token)).isDefaultMark = false := rfl
      rw [addAttribute, unmarked, if_neg Bool.false_ne_true, OpenAttributes.add]
      cases repeated : table.contains key.text with
      | true =>
          refine ⟨[.repeatedAttribute state key], ?_, rfl⟩
          apply Finds.after rfl
          simp only [openAttributes, Name.text_word, Name.isWord_word, beq_self_eq_true, repeated]
          exact (Finds.problems [.repeatedAttribute state key]).returning fun _ => _
      | false =>
          refine ⟨[], ?_, (List.append_nil _).symm⟩
          apply Finds.after rfl
          simp only [openAttributes, Name.text_word, Name.isWord_word, beq_self_eq_true, repeated]
          exact Finds.nothing _

/-- The attributes of a state are read like those of an entry. -/
theorem foldlM_addAttribute (attributes : List Attribute) :
    ∃ found, Finds ((attributes.map (Attribute.tree Name.word)).foldlM
        (fun (block, read) tree => addAttribute state.word block read tree)
        (closedBlock states, {})) found
        (openBlock states state (attributes.foldl (OpenAttributes.add states.registry state) {}),
          openAttributes (attributes.foldl (OpenAttributes.add states.registry state) {})) ∧
      (attributes.foldl (OpenAttributes.add states.registry state) {}).problems = found := by
  have each (read : OpenAttributes) (shown : Block × Attributes)
      (same : shown = (openBlock states state read, openAttributes read)) (mark : Attribute)
      (_ : mark ∈ attributes) :
      ∃ next found,
        Finds (addAttribute state.word shown.1 shown.2 (mark.tree Name.word)) found next ∧
        next = (openBlock states state (read.add states.registry state mark),
          openAttributes (read.add states.registry state mark)) ∧
        (read.add states.registry state mark).problems = read.problems ++ found := by
    subst same
    rcases addAttribute_tree states state read mark with ⟨found, finds, known⟩
    exact ⟨_, found, finds, rfl, known⟩
  have start : (closedBlock states, ({} : Attributes)) =
      (openBlock states state {}, openAttributes {}) := rfl
  rcases Finds.foldlM each start with ⟨_, found, finds, rfl, known⟩
  exact ⟨found, finds, known⟩

end Attributes

/-! ## States -/

private theorem find?_word (declared : List Name) (name : Name) :
    (declared.map Name.word).find? name.word.same =
      (declared.find? fun other => other.text == name.text).map Name.word := by
  rw [List.find?_map]
  congr 2
  funext other
  exact Bool.beq_comm

theorem defaultTree_add (registry : Registry) (name : Name) (asDefault : Bool)
    (attributes : Table String String) :
    defaultTree (registry.add name.text asDefault attributes) =
      if asDefault && registry.default?.isNone then name.word else defaultTree registry := by
  have chosen := registry.default?_add name.text asDefault attributes
  have named (registry : Registry) :
      defaultTree registry = ((registry.default?.map State.name).map word).getD missing := by
    rw [defaultTree, Option.map_map]
    rfl
  rw [named, chosen, named]
  cases registry.default? with
  | some first => simp
  | none => cases asDefault <;> rfl

/-- A state with a new name is the default state exactly if it is marked and no other is. -/
private theorem isDefault_openBlock {states : OpenRegistry} (consistent : states.Consistent)
    {name : Name} (fresh : (states.declared.find? fun other => other.text == name.text) = none)
    (attributes : OpenAttributes) :
    (attributes.marked && (openBlock states name attributes).default.same name.word) =
      (attributes.marked && states.registry.default?.isNone) := by
  cases marked : attributes.marked with
  | false => rfl
  | true =>
      cases default : states.registry.default? with
      | none =>
          simp [openBlock, marked, default]
      | some first =>
          have occurs : first.name ∈ states.declared.map Name.text := by
            rw [← consistent.names]
            exact List.mem_map.mpr ⟨first, List.mem_of_find?_eq_some default, rfl⟩
          rcases List.mem_map.mp occurs with ⟨other, declared, same⟩
          have apart : (first.name == name.text) = false := by
            rw [← same]
            exact Bool.eq_false_iff.mpr (List.find?_eq_none.mp fresh other declared)
          simp only [openBlock, marked, default, defaultTree, Option.isNone_some, Bool.and_false,
            Bool.false_eq_true, if_false]
          exact apart

/-- When all attributes of a new state are read, the block is closed again. -/
private theorem closedBlock_add {states : OpenRegistry} (consistent : states.Consistent)
    {name : Name} (fresh : (states.declared.find? fun other => other.text == name.text) = none)
    (read : OpenAttributes) (problems : List Problem) :
    ({ declared := (openBlock states name read).declared ++ [name.word]
       default := (openBlock states name read).default
       states := (openBlock states name read).states ++
        [⟨name.word.text, (openBlock states name read).states.length,
          read.marked && (openBlock states name read).default.same name.word, read.table⟩] } :
      Block) =
      closedBlock ⟨states.registry.add name.text read.marked read.table,
        states.declared ++ [name], problems⟩ := by
  rw [closedBlock, defaultTree_add, isDefault_openBlock consistent fresh, List.map_append,
    Registry.add]
  rfl

/-- One more state. Since no state of its name was declared before, it is not taken for a
default state that was found earlier. -/
theorem addState_tree {states : OpenRegistry} (consistent : states.Consistent)
    (entry : StateEntry) :
    ∃ found, Finds (addState (closedBlock states) (entry.tree Name.word)) found
        (closedBlock (states.add entry)) ∧
      (states.add entry).problems = states.problems ++ found := by
  rcases entry with ⟨name, attributes⟩
  have opened : (StateEntry.tree Name.word ⟨name, attributes⟩).pair =
      .ok (name.word, node (attributes.map (Attribute.tree Name.word))) := rfl
  have sought : (closedBlock states).declared.find? name.word.same = _ :=
    find?_word states.declared name
  rw [OpenRegistry.add]
  cases declared : states.declared.find? fun other => other.text == name.text with
  | some first =>
      rw [declared] at sought
      refine ⟨[.repeatedState first name], ?_, rfl⟩
      apply Finds.after opened
      simp only [sought]
      exact (Finds.problems [.repeatedState first name]).returning fun _ => _
  | none =>
      rw [declared] at sought
      rcases foldlM_addAttribute states name attributes with ⟨found, finds, known⟩
      refine ⟨found, ?_, congrArg (states.problems ++ ·) known⟩
      apply Finds.after opened
      simp only [sought, Option.map_none]
      apply Finds.after rfl
      exact closedBlock_add consistent declared _ _ ▸ finds.returning _

/-- The registry of a tree and its problems are those of the block. -/
theorem checkStates_tree (entries : List StateEntry) :
    Finds (checkStates ((Value.states entries).tree Name.word))
      (Cellular.checkStates entries).problems (Cellular.checkStates entries).registry := by
  have each (states : OpenRegistry) (block : Block)
      (shown : states.Consistent ∧ block = closedBlock states) (entry : StateEntry)
      (_ : entry ∈ entries) :
      ∃ next found, Finds (addState block (entry.tree Name.word)) found next ∧
        ((states.add entry).Consistent ∧ next = closedBlock (states.add entry)) ∧
        (states.add entry).problems = states.problems ++ found := by
    rcases shown with ⟨consistent, rfl⟩
    rcases addState_tree consistent entry with ⟨found, finds, known⟩
    exact ⟨_, found, finds, ⟨consistent.add entry, rfl⟩, known⟩
  have start : ({} : OpenRegistry).Consistent ∧ ({} : Block) = closedBlock {} :=
    ⟨⟨rfl, List.nodup_nil⟩, rfl⟩
  rcases Finds.foldlM each start with ⟨_, found, finds, ⟨_, rfl⟩, known⟩
  have problems : (Cellular.checkStates entries).problems = found := known
  rw [problems, ← List.append_nil found]
  apply Finds.after rfl
  apply finds.bind
  simp only [closedBlock, Registry.ofStates?_states]
  exact Finds.nothing _

end Tree

end Cellular
