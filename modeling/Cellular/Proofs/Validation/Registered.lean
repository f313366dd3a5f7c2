import Cellular.Proofs.Validation.Block
import Mathlib.Algebra.Ring.Nat

/-!
# The registry of any block of states

A block of states gives a proper registry however it is written. Of entries with one name
only the first counts. Of what remains the first entry that is marked is the default, and
every state keeps the first token of each of its keys. Each entry, each default mark and
each attribute that does not count is one problem, so that a block without problems is
registered as it stands.

The block is read entry by entry, and the attributes of an entry one by one. What was read
so far is described by the entries, or the attributes, before the next one, so that the
inductions here add to the end of a list.
-/

namespace Cellular

/-! ## What a block describes -/

/-- The key and the token of an attribute that has them. -/
def Attribute.token? : Attribute → Option (String × String)
  | .defaultMark => none
  | .keyed key token => some (key.text, token.text)

namespace StateEntry

/-- The tokens of an entry with their keys, as they are written. -/
def tokens (entry : StateEntry) : List (String × String) :=
  entry.attributes.filterMap Attribute.token?

/-- The attributes of an entry: of the tokens of one key, the first. -/
def table (entry : StateEntry) : Table String String :=
  ⟨firstBy Prod.fst entry.tokens, nodup_map_firstBy entry.tokens⟩

/-- How many attributes of an entry have the key of an earlier one. -/
def repeatedKeys (entry : StateEntry) : Nat :=
  repeats Prod.fst entry.tokens

theorem get?_table (entry : StateEntry) (key : String) :
    entry.table.get? key = entry.tokens.lookup key :=
  lookup_firstBy entry.tokens key

theorem marked_iff {entry : StateEntry} :
    entry.marked = true ↔ 0 < entry.attributes.count .defaultMark := by
  rw [marked, List.contains_iff_mem, List.count_pos_iff]

end StateEntry

/-- The first entry of each name. -/
def firstEntries (entries : List StateEntry) : List StateEntry :=
  firstBy (·.name.text) entries

/-- The states of entries: numbered by their places, and the first one that is marked is
the default. -/
def describedStates (entries : List StateEntry) : List State :=
  entries.mapIdx fun i entry =>
    ⟨entry.name.text, i, entries.findIdx? StateEntry.marked == some i, entry.table⟩

@[simp]
theorem length_describedStates (entries : List StateEntry) :
    (describedStates entries).length = entries.length :=
  List.length_mapIdx

theorem map_name_describedStates (entries : List StateEntry) :
    (describedStates entries).map State.name = entries.map (·.name.text) := by
  apply List.ext_getElem?
  intro i
  simp only [describedStates, List.getElem?_map, List.getElem?_mapIdx, Option.map_map]
  rfl

theorem describedStates_concat (entries : List StateEntry) (entry : StateEntry) :
    describedStates (entries ++ [entry]) = describedStates entries ++
      [⟨entry.name.text, entries.length,
        entry.marked && (entries.findIdx? StateEntry.marked).isNone, entry.table⟩] := by
  rw [describedStates, List.mapIdx_concat, List.findIdx?_append, describedStates]
  cases known : entries.findIdx? StateEntry.marked with
  | some place =>
      have below : place < entries.length := (List.findIdx?_eq_some_iff_getElem.mp known).1
      have other : place ≠ entries.length := Nat.ne_of_lt below
      simp [other]
  | none =>
      congr 1
      · apply List.mapIdx_eq_mapIdx_iff.mpr
        intro i below
        cases entry.marked <;> simp [Nat.ne_of_gt below]
      · cases marked : entry.marked <;> simp [marked]

/-- The default state is found at the first entry that is marked. -/
theorem default_describedStates (entries : List StateEntry) :
    ((describedStates entries).find? State.isDefault).map State.index =
      (entries.findIdx? StateEntry.marked).map Int.ofNat := by
  induction entries using List.reverseRecOn with
  | nil => rfl
  | append_singleton entries entry ih =>
      rw [describedStates_concat, List.find?_append, List.findIdx?_append, Option.map_or,
        Option.map_or, ih]
      cases known : entries.findIdx? StateEntry.marked with
      | some place => rfl
      | none => cases marked : entry.marked <;> simp [marked]

/-! ## Attributes -/

/-- What was read of the attributes of a state is its mark and the first token of each key.
A mark is a problem unless it is the first one and there is no default before the state. -/
structure OpenAttributes.Describes (registry : Registry) (marks : List Attribute)
    (attributes : OpenAttributes) : Prop where
  marked : attributes.marked = marks.contains .defaultMark
  entries : attributes.table.entries = firstBy Prod.fst (marks.filterMap Attribute.token?)
  problems : attributes.problems.length =
    (marks.count .defaultMark - if registry.default?.isSome then 0 else 1) +
      repeats Prod.fst (marks.filterMap Attribute.token?)

namespace OpenAttributes.Describes

variable {registry : Registry} {marks : List Attribute} {attributes : OpenAttributes}

theorem add_mark (described : attributes.Describes registry marks) (state : Name) :
    (attributes.add registry state .defaultMark).Describes registry (marks ++ [.defaultMark]) := by
  have same : (marks ++ [Attribute.defaultMark]).filterMap Attribute.token? =
      marks.filterMap Attribute.token? := by simp [Attribute.token?]
  have behind : attributes.marked = true ↔ 0 < marks.count .defaultMark := by
    rw [described.marked, List.contains_iff_mem, List.count_pos_iff]
  have counted := described.problems
  constructor
  · rw [OpenAttributes.add, List.contains_iff_mem.mpr (by simp)]
  · rw [same]
    exact described.entries
  · rw [same, List.count_append, List.count_singleton_self, OpenAttributes.add,
      List.length_append, counted]
    cases marked : attributes.marked with
    | true =>
        have earlier := behind.mp marked
        rw [if_pos rfl, List.length_singleton]
        split <;> omega
    | false =>
        have first : marks.count .defaultMark = 0 := by
          have none : ¬0 < marks.count .defaultMark := by simp [← behind, marked]
          omega
        rw [if_neg Bool.false_ne_true, first]
        cases registry.default? with
        | none => simp
        | some earlier => simp [Nat.add_comm]

theorem add_token (described : attributes.Describes registry marks) (state key token : Name) :
    (attributes.add registry state (.keyed key token)).Describes registry
      (marks ++ [.keyed key token]) := by
  have longer : (marks ++ [Attribute.keyed key token]).filterMap Attribute.token? =
      marks.filterMap Attribute.token? ++ [(key.text, token.text)] := by
    simp [Attribute.token?]
  have known : attributes.table.contains key.text = true ↔
      key.text ∈ (marks.filterMap Attribute.token?).map Prod.fst := by
    rw [Table.contains_iff, described.entries, mem_map_firstBy]
  have counted := described.problems
  have sameMark : (marks ++ [Attribute.keyed key token]).contains .defaultMark =
      marks.contains .defaultMark := by simp
  have sameMarks : (marks ++ [Attribute.keyed key token]).count .defaultMark =
      marks.count .defaultMark := by simp
  rw [OpenAttributes.add]
  split
  · rename_i repeated
    constructor
    · rw [sameMark]
      exact described.marked
    · rw [longer, firstBy_concat, if_pos (known.mp repeated), List.append_nil]
      exact described.entries
    · rw [longer, repeats_concat, if_pos (known.mp repeated), sameMarks, List.length_append,
        counted, List.length_singleton, Nat.add_assoc]
  · rename_i fresh
    have unknown := mt known.mpr fresh
    constructor
    · rw [sameMark]
      exact described.marked
    · have inserted : (attributes.table.insert key.text token.text).entries =
          attributes.table.entries ++ [(key.text, token.text)] :=
        insertEntry_of_fresh (mt Table.contains_iff.mpr fresh) token.text
      rw [longer, firstBy_concat, if_neg unknown, inserted, described.entries]
    · rw [longer, repeats_concat, if_neg unknown, sameMarks, Nat.add_zero]
      exact counted

/-- The attributes of an entry, read one by one. -/
theorem foldl (registry : Registry) (state : Name) (marks : List Attribute) :
    (marks.foldl (OpenAttributes.add registry state) {}).Describes registry marks := by
  induction marks using List.reverseRecOn with
  | nil => exact ⟨rfl, rfl, (Nat.zero_sub _).symm⟩
  | append_singleton marks mark ih =>
      rw [List.foldl_append, List.foldl_cons, List.foldl_nil]
      cases mark with
      | defaultMark => exact ih.add_mark state
      | keyed key token => exact ih.add_token state key token

end OpenAttributes.Describes

/-! ## Entries -/

/-- What was read of a block of states are the first entries of each name. An entry is a
problem if its name came before, and otherwise as far as its marks and its keys are. -/
structure OpenRegistry.Describes (entries : List StateEntry) (states : OpenRegistry) : Prop where
  declared : states.declared.map Name.text = (firstEntries entries).map (·.name.text)
  registered : states.registry.states = describedStates (firstEntries entries)
  problems : states.problems.length =
    repeats (·.name.text) entries + (defaultMarks (firstEntries entries) - 1) +
      ((firstEntries entries).map StateEntry.repeatedKeys).sum

theorem defaultMarks_pos_iff {entries : List StateEntry} :
    0 < defaultMarks entries ↔ entries.any StateEntry.marked = true := by
  simp only [defaultMarks, List.count_pos_iff, List.mem_flatMap, List.any_eq_true,
    StateEntry.marked, List.contains_iff_mem]

namespace OpenRegistry.Describes

variable {entries : List StateEntry} {states : OpenRegistry}

/-- There is a default state as soon as an entry that counts is marked. -/
theorem default?_isSome (described : states.Describes entries) :
    states.registry.default?.isSome =
      ((firstEntries entries).findIdx? StateEntry.marked).isSome := by
  have found := congrArg Option.isSome (default_describedStates (firstEntries entries))
  rwa [Option.isSome_map, Option.isSome_map, ← described.registered] at found

/-- An entry whose name came before is one more problem, and counts for nothing. -/
theorem add_repeated (described : states.Describes entries) {entry : StateEntry}
    (repeated : entry.name.text ∈ entries.map (·.name.text)) (problem : Problem) :
    OpenRegistry.Describes (entries ++ [entry])
      { states with problems := states.problems ++ [problem] } := by
  have counted := described.problems
  have kept : firstEntries (entries ++ [entry]) = firstEntries entries := by
    rw [firstEntries, firstBy_concat, if_pos repeated, List.append_nil, firstEntries]
  constructor
  · rw [kept]
    exact described.declared
  · rw [kept]
    exact described.registered
  · rw [kept, repeats_concat, if_pos repeated, List.length_append, List.length_singleton, counted]
    omega

/-- An entry with a new name counts, with what was read of its attributes. -/
theorem add_fresh (described : states.Describes entries) {entry : StateEntry}
    (unknown : entry.name.text ∉ entries.map (·.name.text)) {attributes : OpenAttributes}
    (read : attributes.Describes states.registry entry.attributes) :
    OpenRegistry.Describes (entries ++ [entry])
      { registry := states.registry.add entry.name.text attributes.marked attributes.table
        declared := states.declared ++ [entry.name]
        problems := states.problems ++ attributes.problems } := by
  have counted := described.problems
  have longer : firstEntries (entries ++ [entry]) = firstEntries entries ++ [entry] := by
    rw [firstEntries, firstBy_concat, if_neg unknown, firstEntries]
  constructor
  · rw [longer, List.map_append, List.map_append, described.declared]
    rfl
  · have table : attributes.table = entry.table := Table.eq_of_entries read.entries
    have free := congrArg not described.default?_isSome
    rw [Option.not_isSome, Option.not_isSome] at free
    rw [longer, describedStates_concat]
    simp only [Registry.add, read.marked, table, free, described.registered,
      length_describedStates, StateEntry.marked]
  · have default : states.registry.default?.isSome = true ↔
        0 < defaultMarks (firstEntries entries) := by
      rw [described.default?_isSome, List.findIdx?_isSome, defaultMarks_pos_iff]
    have marks : defaultMarks (firstEntries entries ++ [entry]) =
        defaultMarks (firstEntries entries) + entry.attributes.count .defaultMark := by
      rw [defaultMarks, List.flatMap_append, List.count_append, List.flatMap_singleton,
        defaultMarks]
    rw [longer, repeats_concat, if_neg unknown, List.length_append, counted, read.problems,
      List.map_append, List.sum_append, List.map_singleton, List.sum_singleton, marks]
    simp only [default, StateEntry.repeatedKeys, StateEntry.tokens]
    split <;> omega

theorem add (described : states.Describes entries) (entry : StateEntry) :
    (states.add entry).Describes (entries ++ [entry]) := by
  have known : (∃ first ∈ states.declared, first.text = entry.name.text) ↔
      entry.name.text ∈ entries.map (·.name.text) := by
    rw [← mem_map_firstBy, ← firstEntries, ← described.declared, List.mem_map]
  rw [OpenRegistry.add]
  split
  · rename_i first found
    have same := List.find?_some found
    have repeated := known.mp ⟨first, List.mem_of_find?_eq_some found, eq_of_beq same⟩
    exact described.add_repeated repeated _
  · rename_i fresh
    have unknown : entry.name.text ∉ entries.map (·.name.text) := by
      intro member
      rcases known.mpr member with ⟨first, declared, same⟩
      exact List.find?_eq_none.mp fresh first declared (beq_iff_eq.mpr same)
    exact described.add_fresh unknown (.foldl states.registry entry.name entry.attributes)

end OpenRegistry.Describes

/-- A block of states, read entry by entry. -/
theorem describes_checkStates (entries : List StateEntry) :
    (checkStates entries).Describes entries := by
  rw [checkStates]
  induction entries using List.reverseRecOn with
  | nil => exact ⟨rfl, rfl, rfl⟩
  | append_singleton entries entry ih =>
      rw [List.foldl_append, List.foldl_cons, List.foldl_nil]
      exact ih.add entry

/-! ## The registry -/

/-- What a block of states gives. -/
structure OpenRegistry.Registers (entries : List StateEntry) (states : OpenRegistry) : Prop where
  /-- The registry can be made of the states of the first entries: they are numbered by their
  places, and at most one of them is the default. -/
  proper : Registry.ofStates? (describedStates (firstEntries entries)) = some states.registry
  /-- Every name is registered once, in the order in which the names first come. -/
  names : states.registry.names = (entries.map (·.name.text)).eraseDups
  /-- Names and numbers undo each other. -/
  name_iff_index : ∀ (i : Nat) (name : String),
    (states.registry.at? i).map State.name = some name ↔ states.registry.index name = .ok i
  /-- The numbers are those below the number of names. -/
  numbered_iff : ∀ i : Nat,
    (states.registry.at? i).isSome = true ↔ i < states.registry.names.length
  /-- The registered names are those that have a number. -/
  named_iff : ∀ name, name ∈ states.registry.names ↔ ∃ i, states.registry.index name = .ok i
  /-- The default state is that of the first entry that counts and is marked. -/
  default : states.registry.default?.map State.index =
    ((firstEntries entries).findIdx? StateEntry.marked).map Int.ofNat
  /-- Every state has the first token of each key of its entry. -/
  tokens : ∀ (i : Nat) (entry : StateEntry), (firstEntries entries)[i]? = some entry →
    ∃ state, states.registry.at? i = some state ∧ state.name = entry.name.text ∧
      ∀ key, state.attributes.get? key = entry.tokens.lookup key
  /-- The problems are the repeated entries, the default marks beyond the first, and the
  repeated keys. -/
  problems : states.problems.length =
    repeats (·.name.text) entries + (defaultMarks (firstEntries entries) - 1) +
      ((firstEntries entries).map StateEntry.repeatedKeys).sum
  /-- Without a problem, every entry is registered with its mark and all of its tokens. -/
  complete : states.problems = [] →
    states.registry.states.map (fun state => (state.name, state.isDefault,
        state.attributes.entries)) =
      entries.map (fun entry => (entry.name.text, entry.marked, entry.tokens)) ∧
    defaultMarks entries ≤ 1

/-- The states of entries of which at most one is marked are marked like them. -/
theorem marks_describedStates {entries : List StateEntry} (single : defaultMarks entries ≤ 1) :
    (describedStates entries).map State.isDefault = entries.map StateEntry.marked := by
  induction entries using List.reverseRecOn with
  | nil => rfl
  | append_singleton entries entry ih =>
      rw [defaultMarks, List.flatMap_append, List.count_append, List.flatMap_singleton,
        ← defaultMarks] at single
      rw [describedStates_concat, List.map_append, List.map_append, ih (by omega)]
      cases marked : entry.marked with
      | false => simp [marked]
      | true =>
          have last := StateEntry.marked_iff.mp marked
          have none : ¬entries.any StateEntry.marked = true := by
            rw [← defaultMarks_pos_iff]
            omega
          simpa [marked] using none

namespace OpenRegistry.Describes

variable {entries : List StateEntry} {states : OpenRegistry}

theorem complete (described : states.Describes entries) (clean : states.problems = []) :
    states.registry.states.map (fun state => (state.name, state.isDefault,
        state.attributes.entries)) =
      entries.map (fun entry => (entry.name.text, entry.marked, entry.tokens)) ∧
    defaultMarks entries ≤ 1 := by
  have none := described.problems
  rw [clean, List.length_nil] at none
  have all : firstEntries entries = entries := firstBy_of_repeats_eq_zero (by omega)
  rw [all] at none
  have single : defaultMarks entries ≤ 1 := by omega
  have distinct : ∀ entry ∈ entries, entry.repeatedKeys = 0 := by
    intro entry member
    have sum : (entries.map StateEntry.repeatedKeys).sum = 0 := by omega
    exact List.sum_eq_zero_iff_forall_eq_nat.mp sum _ (List.mem_map_of_mem member)
  refine ⟨?_, single⟩
  rw [described.registered, all]
  apply List.ext_getElem?
  intro i
  have marks := congrArg (·[i]?) (marks_describedStates single)
  simp only [describedStates, List.getElem?_map, List.getElem?_mapIdx, Option.map_map] at marks ⊢
  cases known : entries[i]? with
  | none => rfl
  | some entry =>
      have whole : entry.table.entries = entry.tokens :=
        firstBy_of_repeats_eq_zero (distinct entry (List.mem_of_getElem? known))
      simp only [known, Option.map_some, Function.comp_apply, Option.some.injEq] at marks ⊢
      rw [marks, whole]

end OpenRegistry.Describes

/-- However a block of states is written, it gives a proper registry: of the entries of one
name the first counts, the first of these that is marked is the default, and every state
keeps the first token of each key. What does not count is a problem each. -/
theorem registers_checkStates (entries : List StateEntry) :
    (checkStates entries).Registers entries := by
  have described := describes_checkStates entries
  have distinct := distinct_checkStates entries
  have names : (checkStates entries).registry.names =
      (firstEntries entries).map (·.name.text) := by
    rw [Registry.names, described.registered, map_name_describedStates]
  constructor
  case proper => rw [← described.registered, Registry.ofStates?_states]
  case names => rw [names, firstEntries, map_firstBy]
  case name_iff_index =>
    intro i name
    rw [Registry.name_eq_iff_indexOf? distinct, Registry.index_eq_ok_iff]
  case numbered_iff =>
    intro i
    rw [Registry.at?_natCast, Registry.names, List.length_map, Option.isSome_iff_ne_none, ne_eq,
      List.getElem?_eq_none_iff, Nat.not_le]
  case named_iff =>
    intro name
    simp only [Registry.mem_names_iff, Registry.index_eq_ok_iff]
  case default => rw [Registry.default?, described.registered, default_describedStates]
  case tokens =>
    intro i entry found
    rw [Registry.at?_natCast, described.registered, describedStates, List.getElem?_mapIdx, found]
    exact ⟨_, rfl, rfl, entry.get?_table⟩
  case problems => exact described.problems
  case complete => exact described.complete

example :
    let entries : List StateEntry :=
      [⟨⟨"dead", none⟩, [.keyed ⟨"color", none⟩ ⟨"black", none⟩]⟩,
        ⟨⟨"alive", none⟩, [.defaultMark, .keyed ⟨"color", none⟩ ⟨"white", none⟩,
          .keyed ⟨"color", none⟩ ⟨"red", none⟩]⟩,
        ⟨⟨"dead", none⟩, [.defaultMark]⟩, ⟨⟨"dying", none⟩, [.defaultMark]⟩]
    (checkStates entries).registry.names = ["dead", "alive", "dying"] ∧
      (checkStates entries).registry.default?.map State.name = some "alive" ∧
        (checkStates entries).problems.length = 3 := by
  decide +kernel

end Cellular
