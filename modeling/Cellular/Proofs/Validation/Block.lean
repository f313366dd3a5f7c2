import Cellular.Proofs.States.Tables
import Cellular.Proofs.Validation.States

/-!
# Sensible blocks of states

Nothing is wrong with a block of states exactly if no two states share a name, at most one
mark in the whole block is that of the default, and no state has two attributes with one
key. The block is checked entry by entry: what an entry may still contain depends on which
names were declared before it and on whether there is a default already.
-/

namespace Cellular

/-- The key of an attribute, if it has one. -/
def Attribute.key? : Attribute → Option String
  | .defaultMark => none
  | .keyed key _ => some key.text

/-- The keys of the attributes of a state. -/
def StateEntry.keys (entry : StateEntry) : List String :=
  entry.attributes.filterMap Attribute.key?

/-- How often a block marks a default state. -/
def defaultMarks (entries : List StateEntry) : Nat :=
  (entries.flatMap StateEntry.attributes).count .defaultMark

theorem defaultMarks_cons (entry : StateEntry) (entries : List StateEntry) :
    defaultMarks (entry :: entries) =
      entry.attributes.count .defaultMark + defaultMarks entries := by
  rw [defaultMarks, List.flatMap_cons, List.count_append, defaultMarks]

/-- A block that makes sense. -/
structure SensibleBlock (entries : List StateEntry) : Prop where
  names : (entries.map (·.name.text)).Nodup
  marks : defaultMarks entries ≤ 1
  keys : ∀ entry ∈ entries, entry.keys.Nodup

/-! ## Attributes -/

/-- How many default marks are behind: whether the state is marked or there is a default. -/
private def taken (registry : Registry) (attributes : OpenAttributes) : Nat :=
  if attributes.marked || registry.default?.isSome then 1 else 0

/-- A default mark is fine as long as there is none behind. -/
private theorem problems_add_mark {registry : Registry} {state : Name} {start : OpenAttributes} :
    (start.add registry state .defaultMark).problems = [] ↔
      start.problems = [] ∧ taken registry start = 0 := by
  rw [OpenAttributes.add, taken]
  cases start.marked <;> cases registry.default? <;> simp

private theorem clean_attributes_iff {registry : Registry} {state : Name} {marks : List Attribute}
    {start : OpenAttributes} :
    (marks.foldl (OpenAttributes.add registry state) start).problems = [] ↔
      start.problems = [] ∧ taken registry start + marks.count .defaultMark ≤ 1 ∧
        (marks.filterMap Attribute.key?).Nodup ∧
          ∀ key ∈ marks.filterMap Attribute.key?, ¬start.table.contains key = true := by
  induction marks generalizing start with
  | nil =>
      have room : taken registry start ≤ 1 := by
        rw [taken]
        split <;> omega
      simp [room]
  | cons mark marks ih =>
      rw [List.foldl_cons, ih]
      cases mark with
      | defaultMark =>
          have key : Attribute.key? .defaultMark = none := rfl
          have behind : taken registry (start.add registry state .defaultMark) = 1 := rfl
          have table : (start.add registry state .defaultMark).table = start.table := rfl
          rw [List.filterMap_cons_none key, List.count_cons_self, problems_add_mark, behind, table]
          constructor
          · rintro ⟨⟨fine, first⟩, last, keys⟩
            exact ⟨fine, by omega, keys⟩
          · rintro ⟨fine, single, keys⟩
            exact ⟨⟨fine, by omega⟩, by omega, keys⟩
      | keyed key token =>
          have named : Attribute.key? (.keyed key token) = some key.text := rfl
          have other : Attribute.keyed key token ≠ .defaultMark := by simp
          rw [List.filterMap_cons_some named, List.count_cons_of_ne other, List.nodup_cons,
            List.forall_mem_cons, OpenAttributes.add]
          by_cases known : start.table.contains key.text = true
          · simp [known]
          · have same : taken registry
                { start with table := start.table.insert key.text token.text } =
                  taken registry start := rfl
            rw [if_neg known, same]
            simp only [Table.contains_insert, not_or]
            constructor
            · rintro ⟨fine, single, distinct, fresh⟩
              exact ⟨fine, single, ⟨fun member => (fresh _ member).1 rfl, distinct⟩, known,
                fun own member => (fresh own member).2⟩
            · rintro ⟨fine, single, ⟨absent, distinct⟩, _, fresh⟩
              refine ⟨fine, single, distinct, fun own member => ⟨?_, fresh own member⟩⟩
              rintro rfl
              exact absent member

/-! ## Entries -/

/-- Whether there is a default state, as a number. -/
private def defaults (registry : Registry) : Nat :=
  if registry.default?.isSome then 1 else 0

private theorem defaults_add (registry : Registry) (name : String) (asDefault : Bool)
    (attributes : Table String String) :
    defaults (registry.add name asDefault attributes) =
      if asDefault then 1 else defaults registry := by
  have known := congrArg Option.isSome (registry.default?_add name asDefault attributes)
  rw [Option.isSome_map] at known
  rw [defaults, known, defaults]
  cases registry.default? <;> cases asDefault <;> rfl

/-- An entry with a new name leaves no problem if it has at most the default mark that is
still free and distinct keys. -/
private theorem add_of_fresh {states : OpenRegistry} {entry : StateEntry}
    (fresh : (states.declared.find? fun name => name.text == entry.name.text) = none) :
    ((states.add entry).problems = [] ↔ states.problems = [] ∧
      defaults states.registry + entry.attributes.count .defaultMark ≤ 1 ∧ entry.keys.Nodup) ∧
    defaults (states.add entry).registry =
      (if 0 < entry.attributes.count .defaultMark then 1 else defaults states.registry) ∧
    (states.add entry).declared = states.declared ++ [entry.name] := by
  have clean :
      (entry.attributes.foldl (OpenAttributes.add states.registry entry.name) {}).problems = [] ↔
        defaults states.registry + entry.attributes.count .defaultMark ≤ 1 ∧
          entry.keys.Nodup := by
    rw [clean_attributes_iff]
    constructor
    · rintro ⟨_, single, distinct, _⟩
      exact ⟨single, distinct⟩
    · rintro ⟨single, distinct⟩
      exact ⟨rfl, single, distinct, fun _ _ => Bool.false_ne_true⟩
  have marked : (entry.attributes.foldl (OpenAttributes.add states.registry entry.name) {}).marked =
      true ↔ 0 < entry.attributes.count .defaultMark := by
    rw [marked_foldl, Bool.false_or, List.contains_iff_mem, List.count_pos_iff]
  simp only [OpenRegistry.add, fresh, List.append_eq_nil_iff, clean, defaults_add, marked, and_self]

private theorem clean_block_iff {entries : List StateEntry} {states : OpenRegistry} :
    (entries.foldl OpenRegistry.add states).problems = [] ↔
      states.problems = [] ∧ (entries.map (·.name.text)).Nodup ∧
        (∀ entry ∈ entries, ∀ name ∈ states.declared, name.text ≠ entry.name.text) ∧
          defaults states.registry + defaultMarks entries ≤ 1 ∧
            ∀ entry ∈ entries, entry.keys.Nodup := by
  induction entries generalizing states with
  | nil =>
      have room : defaults states.registry + defaultMarks [] ≤ 1 := by
        rw [defaults]
        split <;> decide
      simp [room]
  | cons entry entries ih =>
      rw [List.foldl_cons, ih, List.map_cons, List.nodup_cons, List.forall_mem_cons,
        List.forall_mem_cons, defaultMarks_cons]
      cases found : states.declared.find? fun name => name.text == entry.name.text with
      | some first =>
          have same := List.find?_some found
          have declared := List.mem_of_find?_eq_some found
          constructor
          · rintro ⟨fine, _⟩
            rw [OpenRegistry.add, found] at fine
            exact absurd fine (by simp)
          · rintro ⟨_, _, ⟨apart, _⟩, _⟩
            exact absurd (eq_of_beq same) (apart first declared)
      | none =>
          have apart : ∀ name ∈ states.declared, name.text ≠ entry.name.text := by
            intro name member same
            exact List.find?_eq_none.mp found name member (beq_iff_eq.mpr same)
          rcases add_of_fresh found with ⟨problems, default, declared⟩
          rw [problems, default, declared]
          simp only [List.forall_mem_append, List.forall_mem_singleton]
          constructor
          · rintro ⟨⟨fine, single, keys⟩, distinct, others, marks, further⟩
            refine ⟨fine, ⟨?_, distinct⟩, ⟨apart, ?_⟩, ?_, keys, further⟩
            · intro member
              rcases List.mem_map.mp member with ⟨other, isEntry, same⟩
              exact (others other isEntry).2 same.symm
            · exact fun other isEntry => (others other isEntry).1
            · split at marks <;> omega
          · rintro ⟨fine, ⟨absent, distinct⟩, ⟨_, others⟩, marks, keys, further⟩
            refine ⟨⟨fine, by omega, keys⟩, distinct, ?_, ?_, further⟩
            · intro other isEntry
              refine ⟨others other isEntry, fun same => absent ?_⟩
              exact List.mem_map.mpr ⟨other, isEntry, same.symm⟩
            · split <;> omega

/-- Nothing is wrong with a block of states exactly if it makes sense. -/
theorem problems_checkStates_iff {entries : List StateEntry} :
    (checkStates entries).problems = [] ↔ SensibleBlock entries := by
  have free : defaults ({} : OpenRegistry).registry = 0 := rfl
  rw [checkStates, clean_block_iff, free, Nat.zero_add]
  constructor
  · rintro ⟨_, names, _, marks, keys⟩
    exact ⟨names, marks, keys⟩
  · rintro ⟨names, marks, keys⟩
    exact ⟨rfl, names, fun _ _ _ member => absurd member List.not_mem_nil, marks, keys⟩

end Cellular
