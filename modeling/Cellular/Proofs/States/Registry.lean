import Cellular.States.Registry

/-!
# Names and numbers of states

A state is found under its number at its place. A name that is found belongs to the state
with that number, and if no two states share a name, every state is found under its name.
-/

namespace Cellular.Registry

variable {registry : Registry}

theorem index_of_getElem? {i : Nat} {state : State} (found : registry.states[i]? = some state) :
    state.index = i := by
  have numbered := congrArg (·[i]?) registry.index_eq
  rcases List.getElem?_eq_some_iff.mp found with ⟨bound, rfl⟩
  simpa [bound] using numbered

theorem at?_natCast (registry : Registry) (i : Nat) : registry.at? i = registry.states[i]? := by
  have nonneg : ¬((i : Int) < 0) := Int.not_lt.mpr (Int.natCast_nonneg i)
  simp only [at?, if_neg nonneg, Int.toNat_natCast]

theorem nameOf_eq (registry : Registry) (i : Nat) :
    registry.nameOf i = ((registry.states[i]?).map State.name).getD "" := by
  rw [nameOf, at?_natCast]

theorem nameOf_of_getElem? {i : Nat} {state : State}
    (found : registry.states[i]? = some state) : registry.nameOf i = state.name := by
  rw [nameOf_eq, found]
  rfl

private theorem getElem?_of_mem {state : State} (member : state ∈ registry.states) :
    registry.states[state.index.toNat]? = some state := by
  rcases List.mem_iff_getElem?.mp member with ⟨i, found⟩
  rw [index_of_getElem? found, Int.toNat_natCast]
  exact found

/-- A name that has a number is the name of the state with that number. -/
theorem getElem?_of_indexOf? {name : String} {i : Nat} (known : registry.indexOf? name = some i) :
    ∃ state, registry.states[i]? = some state ∧ state.name = name := by
  rcases Option.map_eq_some_iff.mp known with ⟨state, found, rfl⟩
  rw [find?] at found
  have same := List.find?_some found
  have member := List.mem_reverse.mp (List.mem_of_find?_eq_some found)
  exact ⟨state, getElem?_of_mem member, eq_of_beq same⟩

theorem indexOf?_lt {name : String} {i : Nat} (known : registry.indexOf? name = some i) :
    i < registry.states.length := by
  rcases getElem?_of_indexOf? known with ⟨state, found, _⟩
  exact (List.getElem?_eq_some_iff.mp found).1

theorem nameOf_of_indexOf? {name : String} {i : Nat} (known : registry.indexOf? name = some i) :
    registry.nameOf i = name := by
  rcases getElem?_of_indexOf? known with ⟨state, found, rfl⟩
  exact nameOf_of_getElem? found

theorem declares_eq (registry : Registry) (name : String) :
    registry.declares name = (registry.indexOf? name).isSome := by
  rw [declares, indexOf?, Option.isSome_map]

theorem declares_iff {name : String} :
    registry.declares name = true ↔ ∃ i, registry.indexOf? name = some i := by
  rw [declares_eq, Option.isSome_iff_exists]

theorem mem_names_iff {name : String} :
    name ∈ registry.names ↔ ∃ i, registry.indexOf? name = some i := by
  rw [← declares_iff, declares, find?, List.find?_isSome]
  simp only [names, List.mem_map, List.mem_reverse, beq_iff_eq]

theorem names_getElem? {i : Nat} (declared : i < registry.states.length) :
    registry.names[i]? = some (registry.nameOf i) := by
  have found := List.getElem?_eq_getElem declared
  rw [nameOf_of_getElem? found, names, List.getElem?_map, found, Option.map_some]

/-- The names of the states, number by number. -/
theorem map_nameOf_range (registry : Registry) :
    (List.range registry.states.length).map registry.nameOf = registry.names := by
  apply List.ext_getElem?
  intro i
  by_cases below : i < registry.states.length
  · rw [List.getElem?_map, List.getElem?_range below, Option.map_some,
      names_getElem? below]
  · rw [List.getElem?_eq_none, List.getElem?_eq_none]
    · rw [names, List.length_map]
      exact Nat.le_of_not_lt below
    · rw [List.length_map, List.length_range]
      exact Nat.le_of_not_lt below

/-- If no two states share a name, a name and its number determine each other. -/
theorem indexOf?_nameOf (distinct : registry.names.Nodup) {i : Nat}
    (declared : i < registry.states.length) :
    registry.indexOf? (registry.nameOf i) = some i := by
  have place := names_getElem? declared
  rcases mem_names_iff.mp (List.mem_of_getElem? place) with ⟨j, known⟩
  have place' := names_getElem? (indexOf?_lt known)
  rw [nameOf_of_indexOf? known, ← place] at place'
  have bound : j < registry.names.length := by
    rw [names, List.length_map]
    exact indexOf?_lt known
  rw [known, (List.getElem?_inj bound distinct).mp place']

/-- A name is that of a state exactly if it has its number. -/
theorem eq_nameOf_iff (distinct : registry.names.Nodup) {state i : Nat}
    (declared : state < registry.states.length) {name : String}
    (known : registry.indexOf? name = some i) : name = registry.nameOf state ↔ i = state := by
  constructor
  · rintro rfl
    rw [indexOf?_nameOf distinct declared] at known
    exact (Option.some.inj known).symm
  · rintro rfl
    exact (nameOf_of_indexOf? known).symm

/-- A registry can be made of its states. -/
theorem ofStates?_states (registry : Registry) :
    ofStates? registry.states = some registry := by
  rw [ofStates?, dif_pos registry.index_eq, dif_pos registry.default_unique]

theorem index_eq_ok_iff {name : String} {i : Nat} :
    registry.index name = .ok i ↔ registry.indexOf? name = some i := by
  rw [index]
  cases registry.indexOf? name <;> simp

/-- If no two states share a name, the name of a number is the name with that number. -/
theorem name_eq_iff_indexOf? (distinct : registry.names.Nodup)
    {i : Nat} {name : String} :
    (registry.at? i).map State.name = some name ↔ registry.indexOf? name = some i := by
  rw [at?_natCast]
  constructor
  · intro named
    rcases Option.map_eq_some_iff.mp named with ⟨state, found, rfl⟩
    rw [← nameOf_of_getElem? found]
    exact indexOf?_nameOf distinct (List.getElem?_eq_some_iff.mp found).1
  · intro known
    rcases getElem?_of_indexOf? known with ⟨state, found, rfl⟩
    rw [found, Option.map_some]

/-! ## The default state -/

theorem getElem?_of_default? {state : State} (known : registry.default? = some state) :
    registry.states[state.index.toNat]? = some state :=
  getElem?_of_mem (List.mem_of_find?_eq_some known)

theorem default?_lt {state : State} (known : registry.default? = some state) :
    state.index.toNat < registry.states.length :=
  (List.getElem?_eq_some_iff.mp (getElem?_of_default? known)).1

end Cellular.Registry
