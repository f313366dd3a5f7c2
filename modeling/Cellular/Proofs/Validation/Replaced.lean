import Cellular.Proofs.Validation.Acceptance
import Cellular.Proofs.Validation.Renumbered

/-!
# Programs with another value for a key

Validation does not care where the names of a program stand. Programs that differ in nothing
but the places of their names are accepted together, and what comes out differs at most in the
places that the warnings point to.

It checks a program part by part. If a key of a program is assigned another value, the other
parts stay as they were.
-/

namespace Cellular

/-! ## Blocks of states without places -/

/-- What is kept of attributes has no places. -/
private theorem foldl_attributes_anchored (registry : Registry) (state state' : Name)
    (marks : List Attribute) {start other : OpenAttributes} (marked : other.marked = start.marked)
    (table : other.table = start.table) :
    ((marks.map Attribute.anchored).foldl (OpenAttributes.add registry state') other).marked =
        (marks.foldl (OpenAttributes.add registry state) start).marked ∧
      ((marks.map Attribute.anchored).foldl (OpenAttributes.add registry state') other).table =
        (marks.foldl (OpenAttributes.add registry state) start).table := by
  induction marks generalizing start other with
  | nil => exact ⟨marked, table⟩
  | cons mark marks ih =>
      rw [List.map_cons, List.foldl_cons, List.foldl_cons]
      cases mark with
      | defaultMark => exact ih rfl table
      | keyed key token =>
          have text : key.anchored.text = key.text := rfl
          have value : token.anchored.text = token.text := rfl
          rw [Attribute.anchored, Attribute.map, OpenAttributes.add, OpenAttributes.add, text,
            value, table]
          split
          · exact ih marked rfl
          · exact ih marked rfl

private theorem find?_of_texts {names others : List Name}
    (texts : others.map Name.text = names.map Name.text) (text : String) :
    (others.find? fun name => name.text == text).isSome =
      (names.find? fun name => name.text == text).isSome := by
  have moved (names : List Name) : (names.find? fun name => name.text == text).isSome =
      ((names.map Name.text).find? (· == text)).isSome := by
    rw [List.find?_map, Option.isSome_map]
    rfl
  rw [moved, moved, texts]

/-- Two blocks of states that were registered alike, but for the places of names. -/
private structure RegisteredAlike (start other : OpenRegistry) : Prop where
  registry : other.registry = start.registry
  declared : other.declared.map Name.text = start.declared.map Name.text

private theorem RegisteredAlike.add {start other : OpenRegistry}
    (alike : RegisteredAlike start other) (entry : StateEntry) :
    RegisteredAlike (start.add entry) (other.add entry.anchored) := by
  have known := find?_of_texts alike.declared entry.name.text
  have text : entry.anchored.name.text = entry.name.text := rfl
  rw [OpenRegistry.add, OpenRegistry.add, text]
  cases first : start.declared.find? fun name => name.text == entry.name.text with
  | some name =>
      rw [first] at known
      rcases Option.isSome_iff_exists.mp known with ⟨name', first'⟩
      rw [first']
      exact ⟨alike.registry, alike.declared⟩
  | none =>
      rw [first] at known
      rw [Option.not_isSome_iff_eq_none.mp (Bool.eq_false_iff.mp known), alike.registry]
      have start_same : ({} : OpenAttributes).marked = ({} : OpenAttributes).marked := rfl
      rcases foldl_attributes_anchored start.registry entry.name entry.anchored.name
        entry.attributes start_same rfl with ⟨marked, table⟩
      constructor
      · simp only [StateEntry.map] at marked table ⊢
        simp only [marked, table]
      · simp only [List.map_append, alike.declared]
        rfl

private theorem RegisteredAlike.foldl {start other : OpenRegistry}
    (alike : RegisteredAlike start other) (entries : List StateEntry) :
    RegisteredAlike (entries.foldl OpenRegistry.add start)
      ((entries.map StateEntry.anchored).foldl OpenRegistry.add other) := by
  induction entries generalizing start other with
  | nil => exact alike
  | cons entry entries ih => exact ih (alike.add entry)

/-- What is registered of a block has no places. -/
theorem registry_anchored (entries : List StateEntry) :
    (checkStates (entries.map StateEntry.anchored)).registry = (checkStates entries).registry := by
  have alike : RegisteredAlike {} {} := ⟨rfl, rfl⟩
  exact (alike.foldl entries).registry

private theorem renamed_of_anchored {entries others : List StateEntry}
    (same : others.map StateEntry.anchored = entries.map StateEntry.anchored) :
    InSomeOrder (StateEntry.Renamed id) entries others := by
  have each : List.Forall₂ (fun entry other => entry.anchored = other.anchored) entries others :=
    List.forall₂_map_left_iff.mp (List.forall₂_map_right_iff.mp
      ((List.forall₂_eq_eq_eq (α := StateEntry)).symm ▸ same.symm))
  use entries, List.Perm.refl entries
  apply each.imp
  intro entry other alike
  rcases StateEntry.mk.inj alike with ⟨name, attributes⟩
  exact ⟨(Name.mk.inj name).1.symm, attributes.symm⟩

/-! ## Rules without places -/

theorem Rule.map_text_anchored (rule : Rule Name) :
    rule.anchored.map Name.text = rule.map Name.text := by
  rw [anchored, map, map, map, Condition.map_map]
  rfl

private theorem map_text_of_anchored {rules others : List (Rule Name)}
    (same : others.map Rule.anchored = rules.map Rule.anchored) :
    others.map (Rule.map Name.text) = rules.map (Rule.map Name.text) := by
  have moved (rules : List (Rule Name)) :
      rules.map (Rule.map Name.text) = (rules.map Rule.anchored).map (Rule.map Name.text) := by
    rw [List.map_map]
    exact List.map_congr_left fun rule _ => rule.map_text_anchored.symm
  rw [moved, same, ← moved]

/-- Rules without problems are resolved to the same, wherever they stand. -/
theorem checkRules_of_texts {registry : Registry} {most : Option Nat}
    {rules others : List (Rule Name)} {resolved : List (Rule Nat)} {warnings : List Warning}
    (same : others.map (Rule.map Name.text) = rules.map (Rule.map Name.text))
    (done : checkRules registry most rules = .ok ⟨[], resolved, warnings⟩) :
    ∃ warnings', checkRules registry most others = .ok ⟨[], resolved, warnings'⟩ := by
  apply checkRules_clean_iff_forall₂.mpr
  have clean := checkRules_clean_iff_forall₂.mp ⟨warnings, done⟩
  clear done
  induction clean generalizing others with
  | nil =>
      obtain rfl := List.map_eq_nil_iff.mp same
      exact .nil
  | @cons rule own rules resolved first _ ih =>
      rcases List.map_eq_cons_iff.mp same with ⟨other, rest, rfl, head, tail⟩
      have found (name : String) : registry.indexOf? (id name) =
          (registry.indexOf? name).map id := Option.map_id_apply.symm
      have resolves := Rule.resolve_of_map found head first
      have kept : own.map id = own := by
        rw [Rule.map, show CountTest.map (id : Nat → Nat) = id from rfl, Condition.map_id]
        rfl
      rw [kept] at resolves
      exact .cons resolves (ih tail)

/-! ## Boundaries without places -/

/-- A boundary without problems is resolved to the same, wherever its state stands. -/
theorem checkBoundary_of_anchored {registry : Registry} {key : Name}
    {edge other : Boundary (Option Name)} {boundary : Boundary Nat}
    (same : other.anchored = edge.anchored)
    (done : checkBoundary registry key edge = ([], some boundary)) :
    checkBoundary registry key other = ([], some boundary) := by
  cases edge with
  | void =>
      cases other with
      | void => exact done
      | _ => cases same
  | wrap =>
      cases other with
      | wrap => exact done
      | _ => cases same
  | static state =>
      cases other with
      | static state' =>
          have names := Boundary.static.inj same
          cases state with
          | none =>
              obtain rfl := Option.map_eq_none_iff.mp names
              exact done
          | some state =>
              rcases Option.map_eq_some_iff.mp names with ⟨state', rfl, name⟩
              have text : state'.text = state.text := (Name.mk.inj name).1
              rw [checkBoundary] at done ⊢
              rw [text]
              split at done
              · exact done
              · cases done
      | _ => cases same

/-! ## Parts without places -/

/-- The same parts, wherever their names stand. -/
structure Parts.Alike (parts other : Parts) : Prop where
  space : other.space.anchored = parts.space.anchored
  shape : other.shape.anchored = parts.shape.anchored
  edge : other.edge.anchored = parts.edge.anchored
  entries : other.entries.map StateEntry.anchored = parts.entries.map StateEntry.anchored
  rules : other.rules.map Rule.anchored = parts.rules.map Rule.anchored

/-- Parts pass their checks wherever their names stand. -/
theorem Parts.Alike.accepted {parts other : Parts} (alike : parts.Alike other)
    {validated : Validated} (accepted : parts.Accepted validated) :
    ∃ warnings, other.Accepted { validated with warnings } := by
  have anchored_rank := congrArg Environment.rank alike.space
  have ranks : other.space.rank = parts.space.rank := anchored_rank
  have registry : (checkStates other.entries).registry = (checkStates parts.entries).registry := by
    rw [← registry_anchored, alike.entries, registry_anchored]
  rcases checkRules_of_texts (map_text_of_anchored alike.rules) accepted.rules with
    ⟨warnings, ruled⟩
  use warnings
  exact {
    rank := accepted.rank.trans ranks.symm
    sizes := by
      rw [← Environment.resolvedSizes_anchored, alike.space, Environment.resolvedSizes_anchored]
      exact accepted.sizes
    space := by
      rw [← Environment.problems_anchored_eq_nil_iff, alike.space,
        Environment.problems_anchored_eq_nil_iff]
      exact accepted.space
    shape := by
      rw [← Neighborhood.problems_anchored_eq_nil_iff, alike.shape,
        Neighborhood.problems_anchored_eq_nil_iff]
      exact accepted.shape
    offsets := by
      rw [← Neighborhood.offsets_anchored, alike.shape, Neighborhood.offsets_anchored]
      exact accepted.offsets
    nonempty := accepted.nonempty
    entries := (renamed_checkStates Function.injective_id accepted.entries
      (renamed_of_anchored alike.entries)).1
    registry := accepted.registry.trans registry.symm
    boundary := fun key => checkBoundary_of_anchored alike.edge (accepted.boundary key)
    rules := ruled }

/-! ## Programs without places -/

/-- The same value, wherever its names stand. -/
inductive Value.Alike : Value → Value → Prop
  | environment {space other : Environment} (same : other.anchored = space.anchored) :
      Alike (.environment space) (.environment other)
  | neighborhood {shape other : Neighborhood} (same : other.anchored = shape.anchored) :
      Alike (.neighborhood shape) (.neighborhood other)
  | boundary {edge other : Boundary (Option Name)} (same : other.anchored = edge.anchored) :
      Alike (.boundary edge) (.boundary other)
  | states {entries others : List StateEntry}
      (same : others.map StateEntry.anchored = entries.map StateEntry.anchored) :
      Alike (.states entries) (.states others)
  | rules {rules others : List (Rule Name)}
      (same : others.map Rule.anchored = rules.map Rule.anchored) :
      Alike (.rules rules) (.rules others)

theorem Value.alike_of_anchored {value other : Value} (same : other.anchored = value.anchored) :
    value.Alike other := by
  cases value <;> cases other <;> first
    | constructor
      injection same
    | exact absurd same nofun

theorem Value.Alike.takes {key : Key} {value other : Value} (alike : value.Alike other)
    (takes : key.Takes value) : key.Takes other := by
  cases alike <;> cases key <;> exact takes

section Programs

variable {first second : List Declaration}

theorem occurrences_of_anchored
    (same : second.map Declaration.anchored = first.map Declaration.anchored) (key : Key) :
    occurrences second key = occurrences first key := by
  have moved (program : List Declaration) :
      occurrences (program.map Declaration.anchored) key = occurrences program key :=
    List.countP_map
  rw [← moved, same, moved]

theorem valueOf_of_anchored
    (same : second.map Declaration.anchored = first.map Declaration.anchored) (key : Key) :
    Option.Rel Value.Alike (valueOf first key) (valueOf second key) := by
  have moved (program : List Declaration) : (valueOf program key).map Value.anchored =
      valueOf (program.map Declaration.anchored) key := by
    rw [valueOf, valueOf, List.find?_map, Option.map_map, Option.map_map]
    rfl
  have alike : (valueOf second key).map Value.anchored =
      (valueOf first key).map Value.anchored := by
    rw [moved, same, moved]
  cases given : valueOf first key with
  | none =>
      rw [given] at alike
      rw [Option.map_eq_none_iff.mp alike]
      exact .none
  | some value =>
      rw [given] at alike
      rcases Option.map_eq_some_iff.mp alike with ⟨other, found, values⟩
      rw [found]
      exact .some (Value.alike_of_anchored values)

private theorem fits_of_anchored
    (same : second.map Declaration.anchored = first.map Declaration.anchored)
    (fits : ∀ declaration ∈ first, declaration.Fits) :
    ∀ declaration ∈ second, declaration.Fits := by
  intro other member
  have image := List.mem_map_of_mem (f := Declaration.anchored) member
  rw [same] at image
  rcases List.mem_map.mp image with ⟨declaration, inFirst, alike⟩
  rcases fits declaration inFirst with ⟨key, named, takes⟩
  rcases declaration with ⟨name, value⟩
  rcases other with ⟨name', value'⟩
  rcases Declaration.mk.inj alike with ⟨names, values⟩
  use key, (Name.mk.inj names).1.symm.trans named
  exact (Value.alike_of_anchored values.symm).takes takes

/-- A program has the same parts wherever its names stand. -/
theorem exists_parts_of_anchored
    (same : second.map Declaration.anchored = first.map Declaration.anchored) {parts : Parts}
    (divided : Parts.ofProgram? first = some parts) :
    ∃ other, Parts.ofProgram? second = some other ∧ parts.Alike other := by
  have related := valueOf_of_anchored same
  have edges := related .boundary
  rcases Parts.ofProgram?_eq_some_iff.mp divided with ⟨spaced, shaped, stated, ruled, bounded⟩
  rcases exists_of_rel (spaced ▸ related .environment) with ⟨_, spaced', ⟨space⟩⟩
  rcases exists_of_rel (shaped ▸ related .neighborhood) with ⟨_, shaped', _ | ⟨shape⟩⟩
  rcases exists_of_rel (stated ▸ related .states) with ⟨_, stated', _ | _ | _ | ⟨entries⟩⟩
  rcases exists_of_rel (ruled ▸ related .rules) with ⟨_, ruled', _ | _ | _ | _ | ⟨rules⟩⟩
  refine ⟨⟨_, _, _, _, _⟩, Parts.ofProgram?_eq_some_iff.mpr
    ⟨spaced', shaped', stated', ruled', rfl⟩, space, shape, ?_, entries, rules⟩
  rw [← bounded]
  generalize valueOf first .boundary = before at edges
  generalize valueOf second .boundary = after at edges
  cases edges with
  | none => rfl
  | some own =>
      cases own with
      | boundary same => exact same
      | _ => rfl

/-- A program that is accepted is accepted wherever its names stand, and nothing else comes
out but for the warnings, which have places. -/
theorem validate_of_anchored
    (same : second.map Declaration.anchored = first.map Declaration.anchored)
    {validated : Validated} (accepted : validate first = .ok validated) :
    ∃ warnings, validate second = .ok { validated with warnings } := by
  rcases validate_eq_ok_iff_accepted.mp accepted with
    ⟨⟨fits, required, optional⟩, parts, divided, passes⟩
  rcases exists_parts_of_anchored same divided with ⟨other, divided', alike⟩
  rcases alike.accepted passes with ⟨warnings, passes'⟩
  use warnings
  apply validate_eq_ok_iff_accepted.mpr
  constructor
  · simp only [occurrences_of_anchored same]
    exact ⟨fits_of_anchored same fits, required, optional⟩
  · exact ⟨other, divided', passes'⟩

end Programs

/-! ## Another value for a key -/

/-- The program with another value for a key, wherever it declares the key. -/
def assign (key : Key) (value : Value) (program : List Declaration) : List Declaration :=
  program.map fun declaration =>
    if declaration.key.text = key.text then { declaration with value } else declaration

section Assigned

variable {key : Key} {value : Value} {program : List Declaration}

private theorem key_assign (declaration : Declaration) :
    (if declaration.key.text = key.text then { declaration with value } else declaration).key =
      declaration.key := by
  split <;> rfl

theorem occurrences_assign (other : Key) :
    occurrences (assign key value program) other = occurrences program other := by
  rw [occurrences, assign, List.countP_map]
  apply List.countP_congr
  intro declaration _
  rw [Function.comp, key_assign]

/-- The key has the new value and every other key the old one. -/
theorem valueOf_assign (other : Key) :
    valueOf (assign key value program) other =
      if other = key then (valueOf program other).map fun _ => value
      else valueOf program other := by
  have kept : ((fun declaration : Declaration => declaration.key.text == other.text) ∘
        fun declaration => if declaration.key.text = key.text then { declaration with value }
          else declaration) = fun declaration => declaration.key.text == other.text := by
    funext declaration
    rw [Function.comp, key_assign]
  rw [valueOf, valueOf, assign, List.find?_map, kept, Option.map_map]
  cases found : program.find? fun declaration => declaration.key.text == other.text with
  | none => rw [Option.map_none, Option.map_none, Option.map_none, ite_self]
  | some declaration =>
      have known := List.find?_some found
      have named : declaration.key.text = other.text := eq_of_beq known
      rw [Option.map_some, Option.map_some, Option.map_some, Function.comp, named]
      by_cases same : other = key
      · rw [if_pos same, if_pos (congrArg Key.text same)]
      · rw [if_neg same, if_neg fun texts => same (Key.text_injective texts)]

theorem fits_assign (takes : key.Takes value) (fits : ∀ declaration ∈ program, declaration.Fits) :
    ∀ declaration ∈ assign key value program, declaration.Fits := by
  intro assigned member
  rcases List.mem_map.mp member with ⟨declaration, own, rfl⟩
  split
  · next named => exact ⟨key, named, takes⟩
  · exact fits declaration own

theorem readable_assign (readable : value.Readable)
    (each : ∀ declaration ∈ program, declaration.Readable) :
    ∀ declaration ∈ assign key value program, declaration.Readable := by
  intro assigned member
  rcases List.mem_map.mp member with ⟨declaration, own, rfl⟩
  split
  · exact ⟨(each declaration own).key, readable⟩
  · exact each declaration own

/-- An accepted program with another value for a key is accepted if its parts still pass
their checks. -/
private theorem validate_assign {validated replaced : Validated} {parts : Parts}
    (accepted : validate program = .ok validated) (takes : key.Takes value)
    (divided : Parts.ofProgram? (assign key value program) = some parts)
    (passes : parts.Accepted replaced) : validate (assign key value program) = .ok replaced := by
  rcases validate_eq_ok_iff_accepted.mp accepted with ⟨⟨fits, required, optional⟩, _⟩
  apply validate_eq_ok_iff_accepted.mpr
  simp only [occurrences_assign]
  exact ⟨⟨fits_assign takes fits, required, optional⟩, parts, divided, passes⟩

/-- The boundary can be replaced by any other that has no problems. -/
theorem validate_assign_boundary {validated : Validated} {edge : Boundary (Option Name)}
    {boundary : Boundary Nat} (accepted : validate program = .ok validated)
    (declared : (valueOf program .boundary).isSome)
    (resolves : ∀ key, checkBoundary validated.registry key edge = ([], some boundary)) :
    validate (assign .boundary (.boundary edge) program) = .ok { validated with boundary } := by
  rcases accepted_of_validate accepted with ⟨parts, divided, passes⟩
  rcases Parts.ofProgram?_eq_some_iff.mp divided with ⟨spaced, shaped, stated, ruled, _⟩
  rcases Option.isSome_iff_exists.mp declared with ⟨old, bounded⟩
  have divided' : Parts.ofProgram? (assign .boundary (.boundary edge) program) =
      some { parts with edge } := by
    rw [Parts.ofProgram?_eq_some_iff]
    simp only [valueOf_assign, reduceCtorEq, if_true, if_false, bounded, Option.map_some]
    exact ⟨spaced, shaped, stated, ruled, trivial⟩
  exact validate_assign accepted (by trivial) divided' { passes with boundary := resolves }

/-- The rules can be replaced by any others that have no problems. -/
theorem validate_assign_rules {validated : Validated} {rules : List (Rule Name)}
    {resolved : List (Rule Nat)} {warnings : List Warning}
    (accepted : validate program = .ok validated)
    (checked : checkRules validated.registry (some validated.offsets.length) rules =
      .ok ⟨[], resolved, warnings⟩) :
    validate (assign .rules (.rules rules) program) =
      .ok { validated with rules := resolved, warnings } := by
  rcases accepted_of_validate accepted with ⟨parts, divided, passes⟩
  rcases Parts.ofProgram?_eq_some_iff.mp divided with ⟨spaced, shaped, stated, ruled, bounded⟩
  have divided' : Parts.ofProgram? (assign .rules (.rules rules) program) =
      some { parts with rules } := by
    rw [Parts.ofProgram?_eq_some_iff]
    simp only [valueOf_assign, reduceCtorEq, if_true, if_false, ruled, Option.map_some]
    exact ⟨spaced, shaped, stated, trivial, bounded⟩
  exact validate_assign accepted (by trivial) divided' { passes with rules := checked }

end Assigned

end Cellular
