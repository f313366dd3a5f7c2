import Cellular.Proofs.Validation.Block
import Cellular.Proofs.Validation.Rearranged
import Cellular.Proofs.Validation.Rules
import Cellular.Proofs.Validation.Shape

/-!
# States under other numbers

States that are declared in another order and under other names have other numbers. What is
resolved by the first numbers is resolved by the others to the same, renumbered: the rules
that start from a state become the rules that start from the state under its other number,
in the same order. So the parts of a rearranged program pass their checks if the parts of
the program do.
-/

namespace Cellular

/-! ## Places -/

namespace Environment

private theorem isEmpty_sizeProblem_anchored (rank : Nat) (axis : Name) (size : Int) :
    (sizeProblem rank axis.anchored size).isEmpty = (sizeProblem rank axis size).isEmpty := by
  have named : axesNamed rank axis.anchored = axesNamed rank axis := rfl
  rw [sizeProblem, sizeProblem, named]
  split
  · rfl
  · split <;> rfl

theorem resolvedSizes_anchored (space : Environment) :
    space.anchored.resolvedSizes = space.resolvedSizes := by
  have named : ∀ axis : Name, axesNamed space.rank axis.anchored = axesNamed space.rank axis :=
    fun _ => rfl
  simp only [resolvedSizes, map, sizesMap, List.foldl_map, isEmpty_sizeProblem_anchored, named]

theorem problems_anchored_eq_nil_iff (space : Environment) :
    space.anchored.problems = [] ↔ space.problems = [] := by
  rw [problems_eq_nil_iff, problems_eq_nil_iff, Sensible, Sensible]
  exact List.forall_mem_map

end Environment

namespace Neighborhood

theorem problems_anchored_eq_nil_iff (rank : Nat) (shape : Neighborhood) :
    shape.anchored.problems rank = [] ↔ shape.problems rank = [] := by
  rw [problems_eq_nil_iff, problems_eq_nil_iff]
  cases shape with
  | custom rules => exact List.forall_mem_map
  | _ => rfl

theorem offsets_anchored (rank : Nat) (shape : Neighborhood) :
    shape.anchored.offsets rank = shape.offsets rank := by
  cases shape with
  | custom rules =>
      rw [anchored, map, offsets, offsets, List.mapM_map]
      rfl
  | _ => rfl

end Neighborhood

/-! ## Blocks of states -/

namespace StateEntry.Renamed

variable {rename : String → String} {entry other : StateEntry}

private theorem count_anchored (marks : List Attribute) :
    (marks.map Attribute.anchored).count .defaultMark = marks.count .defaultMark := by
  induction marks with
  | nil => rfl
  | cons mark marks ih => cases mark <;> simp [Attribute.map, ih]

private theorem keys_anchored (marks : List Attribute) :
    (marks.map Attribute.anchored).filterMap Attribute.key? =
      marks.filterMap Attribute.key? := by
  rw [List.filterMap_map]
  apply List.filterMap_congr
  intro mark _
  cases mark <;> rfl

theorem marks_eq (renamed : entry.Renamed rename other) :
    other.attributes.count .defaultMark = entry.attributes.count .defaultMark := by
  rw [← count_anchored, renamed.attributes, count_anchored]

theorem keys_eq (renamed : entry.Renamed rename other) : other.keys = entry.keys := by
  rw [keys, ← keys_anchored, renamed.attributes, keys_anchored, keys]

theorem marked_eq (renamed : entry.Renamed rename other) : other.marked = entry.marked := by
  rw [Bool.eq_iff_iff, marked, marked, List.contains_iff_mem, List.contains_iff_mem,
    ← List.count_pos_iff, ← List.count_pos_iff, renamed.marks_eq]

end StateEntry.Renamed

theorem InSomeOrder.map_perm {α β γ : Type} {R : α → β → Prop} {f : α → γ} {g : β → γ}
    (agree : ∀ a b, R a b → g b = f a) {items : List α} {others : List β}
    (related : InSomeOrder R items others) : (others.map g).Perm (items.map f) := by
  rcases related with ⟨ordered, perm, each⟩
  have same : others.map g = ordered.map f := by
    clear perm
    induction each with
    | nil => rfl
    | @cons a b _ _ own _ ih => rw [List.map_cons, List.map_cons, ih, agree a b own]
  rw [same]
  exact (perm.map f).symm

section Blocks

variable {rename : String → String} {entries others : List StateEntry}

theorem defaultMarks_eq_sum (entries : List StateEntry) :
    defaultMarks entries = (entries.map fun entry => entry.attributes.count .defaultMark).sum :=
  List.count_flatMap

private theorem countP_marked_le (entries : List StateEntry) :
    entries.countP StateEntry.marked ≤ defaultMarks entries := by
  induction entries with
  | nil => exact Nat.zero_le _
  | cons entry entries ih =>
      rw [List.countP_cons, defaultMarks_cons]
      split
      · rename_i marked
        rw [StateEntry.marked, List.contains_iff_mem, ← List.count_pos_iff] at marked
        omega
      · omega

theorem names_rearranged (same : InSomeOrder (StateEntry.Renamed rename) entries others) :
    (others.map (·.name.text)).Perm ((entries.map (·.name.text)).map rename) := by
  rw [List.map_map]
  exact same.map_perm fun _ _ renamed => renamed.name

/-- A block makes sense in any order and under other names. -/
theorem SensibleBlock.rearranged (injective : Function.Injective rename)
    (block : SensibleBlock entries)
    (same : InSomeOrder (StateEntry.Renamed rename) entries others) : SensibleBlock others where
  names := (names_rearranged same).nodup_iff.mpr (block.names.map injective)
  marks := by
    have marks := same.map_perm fun _ _ renamed => renamed.marks_eq
    rw [defaultMarks_eq_sum, marks.sum_eq, ← defaultMarks_eq_sum]
    exact block.marks
  keys := by
    intro other member
    rcases same.exists_of_mem member with ⟨entry, inEntries, renamed⟩
    rw [renamed.keys_eq]
    exact block.keys entry inEntries

theorem default_rearranged (block : SensibleBlock entries)
    (same : InSomeOrder (StateEntry.Renamed rename) entries others) :
    (others.find? StateEntry.marked).map (·.name.text) =
      (entries.find? StateEntry.marked).map fun entry => rename entry.name.text := by
  have single := Nat.le_trans (countP_marked_le entries) block.marks
  have found := same.find?_rel (fun _ _ renamed => renamed.marked_eq.symm) single
  generalize entries.find? _ = before at found
  generalize others.find? _ = after at found
  cases found with
  | none => rfl
  | some renamed => exact congrArg some renamed.name

end Blocks

/-! ## Registries -/

/-- The same states under other names. Their numbers may be others, too. -/
structure Registry.Renamed (rename : String → String) (first second : Registry) : Prop where
  injective : Function.Injective rename
  names : second.names.Perm (first.names.map rename)
  default : second.default?.map State.name = (first.default?.map State.name).map rename
  distinct : first.names.Nodup
  distinct' : second.names.Nodup

theorem renamed_checkStates {rename : String → String} (injective : Function.Injective rename)
    {entries others : List StateEntry} (clean : (checkStates entries).problems = [])
    (same : InSomeOrder (StateEntry.Renamed rename) entries others) :
    (checkStates others).problems = [] ∧
      (checkStates entries).registry.Renamed rename (checkStates others).registry := by
  have block := problems_checkStates_iff.mp clean
  have clean' := problems_checkStates_iff.mpr (block.rearranged injective same)
  refine ⟨clean', injective, ?_, ?_, distinct_checkStates entries, distinct_checkStates others⟩
  · rw [names_checkStates clean', names_checkStates clean]
    exact names_rearranged same
  · rw [default?_checkStates clean', default?_checkStates clean, default_rearranged block same,
      Option.map_map]
    rfl

/-- The number of a state under its other name. -/
def Registry.renumber (rename : String → String) (first second : Registry) (state : Nat) : Nat :=
  (second.indexOf? (rename (first.nameOf state))).getD 0

namespace Registry.Renamed

variable {rename : String → String} {first second : Registry}

theorem mem_names_iff (renamed : first.Renamed rename second) {name : String} :
    rename name ∈ second.names ↔ name ∈ first.names := by
  rw [renamed.names.mem_iff, List.mem_map_of_injective renamed.injective]

/-- A name is found exactly where the other name is found, under the other number. -/
theorem indexOf?_rename (renamed : first.Renamed rename second) (name : String) :
    second.indexOf? (rename name) =
      (first.indexOf? name).map (renumber rename first second) := by
  cases known : first.indexOf? name with
  | none =>
      have missing : ¬∃ i, second.indexOf? (rename name) = some i := by
        rw [← Registry.mem_names_iff, renamed.mem_names_iff, Registry.mem_names_iff, known]
        exact nofun
      exact Option.eq_none_iff_forall_not_mem.mpr fun i found => missing ⟨i, found⟩
  | some i =>
      have member := Registry.mem_names_iff.mpr ⟨i, known⟩
      rcases Registry.mem_names_iff.mp (renamed.mem_names_iff.mpr member) with ⟨j, found⟩
      rw [Option.map_some, renumber, nameOf_of_indexOf? known, found, Option.getD_some]

theorem indexOf?_nameOf_rename (renamed : first.Renamed rename second) {state : Nat}
    (declared : state < first.states.length) :
    second.indexOf? (rename (first.nameOf state)) =
      some (renumber rename first second state) := by
  rw [renamed.indexOf?_rename, indexOf?_nameOf renamed.distinct declared,
    Option.map_some]

theorem renumber_lt (renamed : first.Renamed rename second) {state : Nat}
    (declared : state < first.states.length) :
    renumber rename first second state < second.states.length :=
  indexOf?_lt (renamed.indexOf?_nameOf_rename declared)

theorem nameOf_renumber (renamed : first.Renamed rename second) {state : Nat}
    (declared : state < first.states.length) :
    second.nameOf (renumber rename first second state) = rename (first.nameOf state) :=
  nameOf_of_indexOf? (renamed.indexOf?_nameOf_rename declared)

theorem renumber_inj (renamed : first.Renamed rename second) {state other : Nat}
    (declared : state < first.states.length) (declared' : other < first.states.length) :
    renumber rename first second state = renumber rename first second other ↔ state = other := by
  constructor
  · intro same
    have names := congrArg second.nameOf same
    rw [renamed.nameOf_renumber declared,
      renamed.nameOf_renumber declared'] at names
    have known := indexOf?_nameOf renamed.distinct declared
    rw [renamed.injective names, indexOf?_nameOf renamed.distinct declared'] at known
    exact (Option.some.inj known).symm
  · rintro rfl
    rfl

/-- Every number is the other number of some state. -/
theorem exists_renumber_eq (renamed : first.Renamed rename second) {number : Nat}
    (declared : number < second.states.length) :
    ∃ state < first.states.length, renumber rename first second state = number := by
  have member := List.mem_of_getElem? (names_getElem? declared)
  rw [renamed.names.mem_iff] at member
  rcases List.mem_map.mp member with ⟨name, inFirst, same⟩
  rcases Registry.mem_names_iff.mp inFirst with ⟨state, known⟩
  refine ⟨state, indexOf?_lt known, ?_⟩
  rw [renumber, nameOf_of_indexOf? known, same, indexOf?_nameOf renamed.distinct' declared,
    Option.getD_some]

/-- The default state stays the default state. -/
theorem default_eq (renamed : first.Renamed rename second) :
    second.default?.map (·.index.toNat) =
      (first.default?.map (·.index.toNat)).map (renumber rename first second) := by
  have same := renamed.default
  cases known : first.default? with
  | none =>
      rw [known] at same
      rw [Option.map_eq_none_iff.mp same]
      rfl
  | some state =>
      rw [known] at same
      rcases Option.map_eq_some_iff.mp same with ⟨state', known', names⟩
      have declared := default?_lt known'
      have number := indexOf?_nameOf renamed.distinct' declared
      rw [nameOf_of_getElem? (getElem?_of_default? known'), names] at number
      have name := nameOf_of_getElem? (getElem?_of_default? known)
      rw [known', Option.map_some, Option.map_some, Option.map_some, renumber, name, number,
        Option.getD_some]

end Registry.Renamed

/-! ## Boundaries -/

section Numbers

variable {rename : String → String} {first second : Registry}

theorem Registry.Renamed.checkBoundary (renamed : first.Renamed rename second)
    {edge other : Boundary (Option Name)}
    (same : other.map (Option.map Name.text) =
      edge.map (Option.map fun state => rename state.text))
    {boundary : Boundary Nat} {key : Name}
    (done : checkBoundary first key edge = ([], some boundary)) (key' : Name) :
    checkBoundary second key' other =
      ([], some (boundary.map (renumber rename first second))) := by
  cases edge with
  | void =>
      cases other with
      | void =>
          obtain rfl := Option.some.inj (Prod.mk.inj done).2
          rfl
      | _ => cases same
  | wrap =>
      cases other with
      | wrap =>
          obtain rfl := Option.some.inj (Prod.mk.inj done).2
          rfl
      | _ => cases same
  | static state =>
      cases other with
      | static state' =>
          have names := Boundary.static.inj same
          cases state with
          | none =>
              obtain rfl := Option.map_eq_none_iff.mp names
              have numbers := renamed.default_eq
              rw [Cellular.checkBoundary] at done ⊢
              split at done
              · rename_i default known
                obtain rfl := Option.some.inj (Prod.mk.inj done).2
                rw [known] at numbers
                rcases Option.map_eq_some_iff.mp numbers with ⟨default', known', number⟩
                rw [known']
                simp only [Boundary.map, number]
              · cases (Prod.mk.inj done).2
          | some state =>
              rcases Option.map_eq_some_iff.mp names with ⟨state', rfl, name⟩
              rw [Cellular.checkBoundary] at done ⊢
              rw [name, renamed.indexOf?_rename]
              split at done
              · rename_i index known
                obtain rfl := Option.some.inj (Prod.mk.inj done).2
                rw [known]
                rfl
              · cases (Prod.mk.inj done).2
      | _ => cases same

/-! ## Rules -/

variable {most : Option Nat}

/-- If every name is found under its other name, a rule that is resolved without problems is
resolved under other names. -/
theorem Rule.resolve_of_map {number : Nat → Nat}
    (found : ∀ name, second.indexOf? (rename name) = (first.indexOf? name).map number)
    {rule other : Rule Name}
    (same : other.map Name.text = rule.map fun state => rename state.text) {resolved : Rule Nat}
    (done : rule.resolve first most = .ok ([], some resolved)) :
    other.resolve second most = .ok ([], some (resolved.map number)) := by
  rcases Rule.resolve_clean_iff.mp done with ⟨shallow, source, target, known⟩
  rcases Rule.mk.inj same with ⟨sources, targets, conditions⟩
  apply Rule.resolve_clean_iff.mpr
  refine ⟨?_, ?_, ?_, ?_⟩
  · rw [← Condition.depth_map (CountTest.map Name.text), conditions, Condition.depth_map]
    exact shallow
  · rw [sources, found, source]
    rfl
  · rw [targets, found, target]
    rfl
  · apply Condition.resolveBy_of_map _ conditions known
    intro test test' b tests clean
    rcases CountTest.leaf_clean_iff.mp clean with ⟨reachable, i, isIndex, rfl⟩
    rcases CountTest.mk.inj tests with ⟨comparisons, states, bounds⟩
    apply CountTest.leaf_clean_iff.mpr
    rw [comparisons, states, bounds]
    refine ⟨reachable, _, ?_, rfl⟩
    rw [found, isIndex]
    rfl

theorem Registry.Renamed.resolve (renamed : first.Renamed rename second) {rule other : Rule Name}
    (same : other.map Name.text = rule.map fun state => rename state.text) {resolved : Rule Nat}
    (done : rule.resolve first most = .ok ([], some resolved)) :
    other.resolve second most =
      .ok ([], some (resolved.map (renumber rename first second))) :=
  Rule.resolve_of_map renamed.indexOf?_rename same done

private theorem map_of_forall₂ {α β γ δ ε : Type} {R : α → β → Prop} {S : γ → δ → Prop}
    {f : α → ε} {g : γ → ε} {h : β → δ} (agree : ∀ a b c d, g c = f a → R a b → S c d → d = h b)
    {items : List α} {results : List β} {others : List γ} {answers : List δ}
    (done : List.Forall₂ R items results) (done' : List.Forall₂ S others answers)
    (same : others.map g = items.map f) : answers = results.map h := by
  induction done generalizing others answers with
  | nil =>
      obtain rfl := List.map_eq_nil_iff.mp same
      cases done'
      rfl
  | cons own _ ih =>
      rcases List.map_eq_cons_iff.mp same with ⟨other, rest, rfl, head, tail⟩
      cases done' with
      | cons own' further =>
          rw [List.map_cons, ih further tail, agree _ _ _ _ head own own']

/-- The rules that are resolved to rules from a state are those from its name. -/
private theorem resolved_from {registry : Registry} (distinct : registry.names.Nodup)
    {rules : List (Rule Name)} {resolved : List (Rule Nat)}
    (done : List.Forall₂ (fun rule own => rule.resolve registry most = .ok ([], some own))
      rules resolved)
    {state : Nat} (declared : state < registry.states.length) :
    List.Forall₂ (fun rule own => rule.resolve registry most = .ok ([], some own))
      (rules.filter fun rule => rule.source.text == registry.nameOf state)
      (resolved.filter fun rule => rule.source == state) := by
  apply List.rel_filter _ done
  intro rule own resolve
  dsimp only
  rw [beq_iff_eq, beq_iff_eq]
  exact Registry.eq_nameOf_iff distinct declared (Rule.resolve_clean_iff.mp resolve).2.1

/-- If rules have no problems, then under other names they have none, and the rules from a
state are resolved to the same in the same order, up to numbers. -/
theorem Registry.Renamed.checkRules (renamed : first.Renamed rename second)
    {rules others : List (Rule Name)} (same : RulesRearranged rename rules others)
    {resolved : List (Rule Nat)} {warnings : List Warning}
    (done : checkRules first most rules = .ok ⟨[], resolved, warnings⟩) :
    ∃ resolved' warnings', checkRules second most others = .ok ⟨[], resolved', warnings'⟩ ∧
      ∀ state < first.states.length,
        (resolved'.filter fun rule => rule.source == renumber rename first second state) =
          (resolved.filter fun rule => rule.source == state).map
            (Rule.map (renumber rename first second)) := by
  have clean := checkRules_clean_iff_forall₂.mp ⟨warnings, done⟩
  have from_name : ∀ name : String,
      (others.filter fun rule => rule.source.text == name).map (Rule.map Name.text) =
        (rules.filter fun rule => rename rule.source.text == name).map
          (Rule.map fun state => rename state.text) := by
    intro name
    have own := same name
    rwa [List.filter_map, List.filter_map] at own
  have each : ∀ other ∈ others, ∃ own, other.resolve second most = .ok ([], some own) := by
    intro other member
    have image : other.map Name.text ∈
        (others.filter fun rule => rule.source.text == other.source.text).map
          (Rule.map Name.text) :=
      List.mem_map_of_mem (List.mem_filter.mpr ⟨member, beq_self_eq_true _⟩)
    rw [from_name] at image
    rcases List.mem_map.mp image with ⟨rule, found, names⟩
    rcases exists_of_mem_left clean (List.mem_filter.mp found).1 with ⟨own, _, resolve⟩
    exact ⟨_, renamed.resolve names.symm resolve⟩
  rcases exists_forall₂ each with ⟨resolved', clean'⟩
  rcases checkRules_clean_iff_forall₂.mpr clean' with ⟨warnings', done'⟩
  refine ⟨resolved', warnings', done', ?_⟩
  intro state declared
  have own := resolved_from renamed.distinct clean declared
  have own' := resolved_from renamed.distinct' clean' (renamed.renumber_lt declared)
  have names : (others.filter fun rule =>
      rule.source.text == second.nameOf (renumber rename first second state)).map
        (Rule.map Name.text) =
      (rules.filter fun rule => rule.source.text == first.nameOf state).map
        (Rule.map fun state => rename state.text) := by
    rw [renamed.nameOf_renumber declared, from_name]
    apply congrArg
    apply List.filter_congr
    intro rule _
    rw [Bool.eq_iff_iff, beq_iff_eq, beq_iff_eq, renamed.injective.eq_iff]
  apply map_of_forall₂ _ own own' names
  intro rule resolved other resolved' names known known'
  have both := (renamed.resolve names known).symm.trans known'
  exact (Option.some.inj (Prod.mk.inj (Except.ok.inj both)).2).symm

end Numbers

/-! ## Programs -/

/-- The same program with other names and numbers for its states. -/
structure Validated.Renumbered (rename : String → String) (first second : Validated) : Prop where
  rank : second.rank = first.rank
  sizes : second.sizes = first.sizes
  offsets : second.offsets = first.offsets
  registry : first.registry.Renamed rename second.registry
  boundary : second.boundary =
    first.boundary.map (first.registry.renumber rename second.registry)
  rules : ∀ state < first.registry.states.length,
    (second.rules.filter fun rule =>
        rule.source == first.registry.renumber rename second.registry state) =
      (first.rules.filter fun rule => rule.source == state).map
        (Rule.map (first.registry.renumber rename second.registry))

/-- If the parts of a program pass their checks, so do the parts of a rearranged program,
and the programs that come out differ by names and numbers only. -/
theorem Parts.Rearranged.accepted {rename : String → String}
    (injective : Function.Injective rename) {parts other : Parts}
    (rearranged : parts.Rearranged rename other) {validated : Validated}
    (accepted : parts.Accepted validated) :
    ∃ validated', other.Accepted validated' ∧ validated.Renumbered rename validated' := by
  have ranks : other.space.rank = validated.rank :=
    (congrArg Environment.rank rearranged.space).trans accepted.rank.symm
  have sizes : other.space.resolvedSizes = validated.sizes := by
    rw [← Environment.resolvedSizes_anchored, rearranged.space,
      Environment.resolvedSizes_anchored, accepted.sizes]
  have offsets : other.shape.offsets validated.rank = .ok validated.offsets := by
    rw [← Neighborhood.offsets_anchored, rearranged.shape, Neighborhood.offsets_anchored,
      accepted.offsets]
  rcases renamed_checkStates injective accepted.entries rearranged.entries with ⟨entries, renamed⟩
  have boundary := accepted.boundary
  have rules := accepted.rules
  rw [accepted.registry] at boundary rules
  rcases renamed.checkRules rearranged.rules rules with ⟨resolved, warnings, ruled, rows⟩
  refine ⟨⟨validated.rank, validated.sizes, validated.offsets,
    validated.boundary.map ((checkStates parts.entries).registry.renumber rename
      (checkStates other.entries).registry),
    (checkStates other.entries).registry, resolved, warnings⟩, ?_, ?_⟩
  · exact {
      rank := ranks.symm
      sizes := sizes.symm
      space := by
        rw [← Environment.problems_anchored_eq_nil_iff, rearranged.space,
          Environment.problems_anchored_eq_nil_iff]
        exact accepted.space
      shape := by
        rw [← Neighborhood.problems_anchored_eq_nil_iff, rearranged.shape,
          Neighborhood.problems_anchored_eq_nil_iff]
        exact accepted.shape
      offsets := offsets
      nonempty := accepted.nonempty
      entries := entries
      registry := rfl
      boundary := fun key => renamed.checkBoundary rearranged.edge (boundary key) key
      rules := ruled }
  · exact {
      rank := rfl
      sizes := rfl
      offsets := rfl
      registry := accepted.registry ▸ renamed
      boundary := by rw [accepted.registry]
      rules := by
        rw [accepted.registry]
        exact rows }

end Cellular
