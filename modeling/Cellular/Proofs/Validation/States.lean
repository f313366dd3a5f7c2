import Cellular.Proofs.States.Registry
import Cellular.Validation.Basic

/-!
# Registries of blocks of states

The states of a block are registered one by one. However the block is written, no two
registered states share a name; and if nothing was wrong, every entry was registered, and
the default state is the one that is marked.
-/

namespace Cellular

/-- Whether an entry is marked as the default. -/
def StateEntry.marked (entry : StateEntry) : Bool :=
  entry.attributes.contains .defaultMark

theorem marked_foldl (registry : Registry) (state : Name) (marks : List Attribute)
    (start : OpenAttributes) :
    (marks.foldl (OpenAttributes.add registry state) start).marked =
      (start.marked || marks.contains .defaultMark) := by
  induction marks generalizing start with
  | nil => simp
  | cons mark marks ih =>
      rw [List.foldl_cons, ih]
      cases mark with
      | defaultMark => simp [OpenAttributes.add]
      | keyed key token =>
          have same : (start.add registry state (.keyed key token)).marked = start.marked := by
            rw [OpenAttributes.add]
            split <;> rfl
          simp [same]

namespace Registry

theorem names_add (registry : Registry) (name : String) (asDefault : Bool)
    (attributes : Table String String) :
    (registry.add name asDefault attributes).names = registry.names ++ [name] := by
  simp [names, add]

theorem default?_add (registry : Registry) (name : String) (asDefault : Bool)
    (attributes : Table String String) :
    (registry.add name asDefault attributes).default?.map State.name =
      (registry.default?.map State.name).or (if asDefault then some name else none) := by
  simp only [default?, add, List.find?_append]
  cases known : registry.states.find? State.isDefault with
  | some state => simp
  | none => cases asDefault <;> simp

end Registry

namespace OpenRegistry

/-- What is registered are the states that were declared, each name once. -/
structure Consistent (states : OpenRegistry) : Prop where
  names : states.registry.names = states.declared.map Name.text
  distinct : states.registry.names.Nodup

theorem Consistent.add {states : OpenRegistry} (consistent : states.Consistent)
    (entry : StateEntry) : (states.add entry).Consistent := by
  rw [OpenRegistry.add]
  split
  · exact ⟨consistent.names, consistent.distinct⟩
  · rename_i fresh
    have apart : entry.name.text ∉ states.registry.names := by
      rw [consistent.names]
      intro member
      rcases List.mem_map.mp member with ⟨name, declared, same⟩
      exact List.find?_eq_none.mp fresh name declared (beq_iff_eq.mpr same)
    constructor
    · simp only [Registry.names_add, consistent.names, List.map_append, List.map_cons,
        List.map_nil]
    · simp only [Registry.names_add, List.nodup_append]
      refine ⟨consistent.distinct, by simp, ?_⟩
      rintro name member other single rfl
      rw [List.mem_singleton] at single
      exact apart (single ▸ member)

theorem Consistent.foldl {states : OpenRegistry} (consistent : states.Consistent)
    (entries : List StateEntry) : (entries.foldl OpenRegistry.add states).Consistent := by
  induction entries generalizing states with
  | nil => exact consistent
  | cons entry entries ih => exact ih (consistent.add entry)

private theorem problems_prefix (entries : List StateEntry) (states : OpenRegistry) :
    states.problems <+: (entries.foldl OpenRegistry.add states).problems := by
  induction entries generalizing states with
  | nil => exact List.prefix_refl _
  | cons entry entries ih =>
      apply List.IsPrefix.trans _ (ih (states.add entry))
      rw [OpenRegistry.add]
      split <;> exact List.prefix_append _ _

/-- An entry without a problem is registered. -/
private theorem add_of_clean {states : OpenRegistry} {entry : StateEntry}
    (clean : (states.add entry).problems = []) :
    (states.add entry).registry.names = states.registry.names ++ [entry.name.text] ∧
      (states.add entry).registry.default?.map State.name =
        (states.registry.default?.map State.name).or
          (if entry.marked then some entry.name.text else none) := by
  rw [OpenRegistry.add] at clean ⊢
  split at clean
  · exact absurd clean (by simp)
  · simp only [Registry.names_add, Registry.default?_add, marked_foldl, Bool.false_or,
      StateEntry.marked]
    exact ⟨trivial, rfl⟩

private theorem foldl_of_clean {entries : List StateEntry} {states : OpenRegistry}
    (clean : (entries.foldl OpenRegistry.add states).problems = []) :
    (entries.foldl OpenRegistry.add states).registry.names =
        states.registry.names ++ entries.map (·.name.text) ∧
      (entries.foldl OpenRegistry.add states).registry.default?.map State.name =
        (states.registry.default?.map State.name).or
          ((entries.find? StateEntry.marked).map (·.name.text)) := by
  induction entries generalizing states with
  | nil => simp
  | cons entry entries ih =>
      rcases ih clean with ⟨names, default⟩
      have first := List.prefix_nil.mp (clean ▸ problems_prefix entries (states.add entry))
      rcases add_of_clean first with ⟨added, chosen⟩
      rw [List.foldl_cons, names, default, added, chosen]
      constructor
      · exact by simp
      · rw [List.find?_cons]
        cases states.registry.default? with
        | some state => rfl
        | none => cases entry.marked <;> rfl

end OpenRegistry

/-- However a block is written, no two registered states share a name. -/
theorem distinct_checkStates (entries : List StateEntry) :
    (checkStates entries).registry.names.Nodup := by
  have start : ({} : OpenRegistry).Consistent := ⟨rfl, List.nodup_nil⟩
  exact (start.foldl entries).distinct

/-- If nothing is wrong with a block, every entry is registered. -/
theorem names_checkStates {entries : List StateEntry}
    (clean : (checkStates entries).problems = []) :
    (checkStates entries).registry.names = entries.map (·.name.text) :=
  (OpenRegistry.foldl_of_clean clean).1

/-- If nothing is wrong with a block, the default state is the one that is marked. -/
theorem default?_checkStates {entries : List StateEntry}
    (clean : (checkStates entries).problems = []) :
    (checkStates entries).registry.default?.map State.name =
      (entries.find? StateEntry.marked).map (·.name.text) :=
  (OpenRegistry.foldl_of_clean clean).2

end Cellular
