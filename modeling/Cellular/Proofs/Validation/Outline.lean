import Cellular.Proofs.Outcome
import Cellular.Validation.Outline

/-!
# Outlines without problems

If the declarations of a program have no problems, then its outline has for every key the
value that the program assigns to it.
-/

namespace Cellular

/-- The value that a program assigns to a key: that of the first declaration with it. -/
def valueOf (program : List Declaration) (key : Key) : Option Value :=
  (program.find? fun declaration => declaration.key.text == key.text).map Declaration.value

theorem Key.text_injective {first second : Key} (same : first.text = second.text) :
    first = second := by
  revert same
  cases first <;> cases second <;> decide

theorem Key.text_eq_of_ofText? {text : String} {key : Key} (known : ofText? text = some key) :
    text = key.text := by
  rw [ofText?] at known
  have same := List.find?_some known
  exact (eq_of_beq same).symm

theorem valueOf_cons (declaration : Declaration) (program : List Declaration) (key : Key) :
    valueOf (declaration :: program) key =
      if declaration.key.text = key.text then some declaration.value
      else valueOf program key := by
  rw [valueOf, List.find?_cons]
  by_cases same : declaration.key.text = key.text
  · rw [beq_iff_eq.mpr same, if_pos same]
    rfl
  · rw [beq_false_of_ne same, if_neg same]
    rfl

namespace Outline

/-- What the outline knows about a key. -/
def slot (outline : Outline) : Key → Option Value
  | .environment => outline.environment.map fun entry => .environment entry.2
  | .neighborhood => outline.neighborhood.map fun entry => .neighborhood entry.2
  | .states => outline.states.map fun entry => .states entry.2
  | .rules => outline.rules.map fun entry => .rules entry.2
  | .boundary => outline.boundary.map fun entry => .boundary entry.2

theorem fillSlot_eq_ok {β : Type} {slot filled : Option (Name × β)} {key : Name}
    {value : β} (done : fillSlot slot key value = .ok filled) :
    slot = none ∧ filled = some (key, value) := by
  cases slot with
  | none => exact ⟨rfl, (Except.ok.inj done).symm⟩
  | some first => exact absurd done (by simp [fillSlot])

/-- A declaration without a problem fills the free slot of its key and no other. -/
theorem slot_of_add {outline next : Outline} {declaration : Declaration}
    (added : outline.add declaration = .ok next) :
    ∃ key : Key, declaration.key.text = key.text ∧ outline.slot key = none ∧
      next.slot key = some declaration.value ∧
      ∀ other, other ≠ key → next.slot other = outline.slot other := by
  rcases declaration with ⟨name, value⟩
  simp only [add] at added
  split at added
  · exact absurd added (by simp)
  rename_i key known
  refine ⟨key, Key.text_eq_of_ofText? known, ?_⟩
  split at added
  case h_6 => exact absurd added (by simp)
  all_goals
    rcases map_eq_ok_iff.mp added with ⟨filled, done, rfl⟩
    rcases fillSlot_eq_ok done with ⟨free, rfl⟩
    refine ⟨by simp only [slot, free, Option.map_none], rfl, ?_⟩
    intro other different
    cases other <;> first | rfl | exact absurd rfl different

private theorem slot_of_foldl {program : List Declaration} {start outline : Outline}
    {problems : List Problem}
    (folded : program.foldl
      (fun (outline, problems) declaration =>
        match outline.add declaration with
        | .ok outline => (outline, problems)
        | .error problem => (outline, problems ++ [problem]))
      (start, problems) = (outline, [])) :
    problems = [] ∧ ∀ key, outline.slot key = (start.slot key).or (valueOf program key) := by
  induction program generalizing start problems with
  | nil =>
      rcases Prod.mk.inj folded with ⟨rfl, rfl⟩
      exact ⟨rfl, fun key => Option.or_none.symm⟩
  | cons declaration program ih =>
      rw [List.foldl_cons] at folded
      cases added : start.add declaration with
      | error problem =>
          simp only [added] at folded
          exact absurd (ih folded).1 (by simp)
      | ok next =>
          simp only [added] at folded
          rcases ih folded with ⟨none_before, slots⟩
          rcases slot_of_add added with ⟨key, named, free, filled, others⟩
          constructor
          · exact none_before
          · intro other
            rw [slots, valueOf_cons, named]
            by_cases same : other = key
            · subst same
              rw [filled, free, if_pos rfl, Option.some_or, Option.none_or]
            · rw [others other same, if_neg fun texts => same (Key.text_injective texts).symm]

/-- Without problems the outline knows what the program assigns. -/
theorem slot_ofProgram {program : List Declaration} (clean : (ofProgram program).2 = [])
    (key : Key) : (ofProgram program).1.slot key = valueOf program key := by
  have folded := slot_of_foldl (Prod.ext rfl clean : ofProgram program = (_, []))
  rw [folded.2 key]
  cases key <;> rfl

end Outline

end Cellular
