import Cellular.Proofs.Validation.Outline
import Cellular.Validation.Basic

/-!
# Accepted programs

A program that is accepted has the parts that it must have, one for each key, and every
part passes its check. What validation makes of the program is what the checks make of
its parts.
-/

namespace Cellular

/-- The parts of a program. -/
structure Parts where
  space : Environment
  shape : Neighborhood
  edge : Boundary (Option Name)
  entries : List StateEntry
  rules : List (Rule Name)

/-- The parts of a program by their keys; nothing lies beyond the edge unless the program
says so. -/
def Parts.ofProgram? (program : List Declaration) : Option Parts :=
  match valueOf program .environment, valueOf program .neighborhood, valueOf program .states,
    valueOf program .rules with
  | some (.environment space), some (.neighborhood shape), some (.states entries),
    some (.rules rules) =>
    let edge := match valueOf program .boundary with
      | some (.boundary edge) => edge
      | _ => .void
    some ⟨space, shape, edge, entries, rules⟩
  | _, _, _, _ => none

/-- The parts of a program are what it assigns to its keys. -/
theorem Parts.ofProgram?_eq_some_iff {program : List Declaration} {parts : Parts} :
    ofProgram? program = some parts ↔
      valueOf program .environment = some (.environment parts.space) ∧
      valueOf program .neighborhood = some (.neighborhood parts.shape) ∧
      valueOf program .states = some (.states parts.entries) ∧
      valueOf program .rules = some (.rules parts.rules) ∧
      (match valueOf program .boundary with
        | some (.boundary edge) => edge
        | _ => .void) = parts.edge := by
  rw [ofProgram?]
  constructor
  · intro divided
    split at divided
    · next spaced shaped stated ruled =>
      obtain rfl := Option.some.inj divided
      exact ⟨spaced, shaped, stated, ruled, rfl⟩
    · exact absurd divided nofun
  · rintro ⟨spaced, shaped, stated, ruled, bounded⟩
    rw [spaced, shaped, stated, ruled]
    exact congrArg (fun edge => some { parts with edge }) bounded

/-- A validated program that comes out of the checks of its parts, none of which finds a
problem. -/
structure Parts.Accepted (parts : Parts) (validated : Validated) : Prop where
  rank : validated.rank = parts.space.rank
  sizes : validated.sizes = parts.space.resolvedSizes
  space : parts.space.problems = []
  shape : parts.shape.problems validated.rank = []
  offsets : parts.shape.offsets validated.rank = .ok validated.offsets
  nonempty : validated.offsets ≠ []
  entries : (checkStates parts.entries).problems = []
  registry : validated.registry = (checkStates parts.entries).registry
  boundary : ∀ key, checkBoundary validated.registry key parts.edge =
    ([], some validated.boundary)
  rules : checkRules validated.registry (some validated.offsets.length) parts.rules =
    .ok ⟨[], validated.rules, validated.warnings⟩

private theorem checkNeighborhood_eq_ok {rank : Nat} {key : Name} {shape : Neighborhood}
    {offsets : List Vec} (done : checkNeighborhood rank key shape = .ok ([], some offsets)) :
    shape.problems rank = [] ∧ shape.offsets rank = .ok offsets ∧ offsets ≠ [] := by
  simp only [checkNeighborhood] at done
  split at done
  · rename_i fine
    rcases bind_eq_ok_iff.mp done with ⟨found, listed, done⟩
    rcases Prod.mk.inj (Except.ok.inj done) with ⟨problems, known⟩
    obtain rfl := Option.some.inj known
    refine ⟨List.isEmpty_iff.mp fine, listed, ?_⟩
    rintro rfl
    exact absurd problems (by simp)
  · exact absurd (Prod.mk.inj (Except.ok.inj done)).2 (by simp)

private theorem checkBoundary_key {registry : Registry} {key : Name}
    {edge : Boundary (Option Name)} {boundary : Boundary Nat}
    (done : checkBoundary registry key edge = ([], some boundary)) (other : Name) :
    checkBoundary registry other edge = ([], some boundary) := by
  rw [← done]
  unfold checkBoundary at done ⊢
  split at done
  case h_3 =>
    split at done
    · rfl
    · exact absurd (Prod.mk.inj done).2 (by simp)
  all_goals rfl

private theorem declares_of_missingKeys {program : List Declaration}
    (none_missing : missingKeys program = []) {key : Key} (required : key ∈ Key.required) :
    ∃ value, valueOf program key = some value := by
  have kept := List.filter_eq_nil_iff.mp (List.map_eq_nil_iff.mp none_missing) key required
  rw [Bool.not_eq_true', Bool.not_eq_false, List.any_eq_true] at kept
  rcases kept with ⟨declaration, member, same⟩
  have declared : (program.find? fun declaration => declaration.key.text == key.text).isSome :=
    List.find?_isSome.mpr ⟨declaration, member, same⟩
  rcases Option.isSome_iff_exists.mp declared with ⟨first, found⟩
  exact ⟨first.value, by rw [valueOf, found]; rfl⟩

private theorem checkOffsets_eq_ok {outline : Outline} {name : Name} {space : Environment}
    {offsets : List Vec} (spaced : outline.environment = some (name, space))
    (done : outline.checkOffsets = .ok ([], some offsets)) :
    ∃ key shape, outline.neighborhood = some (key, shape) ∧ shape.problems space.rank = [] ∧
      shape.offsets space.rank = .ok offsets ∧ offsets ≠ [] := by
  rw [Outline.checkOffsets, spaced] at done
  split at done
  · rename_i key shape known given
    cases known
    exact ⟨key, shape, given, checkNeighborhood_eq_ok done⟩
  · exact absurd (Prod.mk.inj (Except.ok.inj done)).2 (by simp)

private theorem checkEdge_eq {outline : Outline} {registry : Registry} {boundary : Boundary Nat}
    (done : outline.checkEdge (some registry) = ([], some boundary)) (key : Name) :
    checkBoundary registry key ((outline.boundary.map Prod.snd).getD .void) =
      ([], some boundary) := by
  simp only [Outline.checkEdge] at done
  split at done
  · rename_i name edge other given known
    cases known
    rw [given]
    exact checkBoundary_key done key
  · rename_i none_given
    cases given : outline.boundary with
    | none => exact done
    | some entry => exact absurd rfl (none_given entry.1 entry.2 registry given)

/-- A program is accepted only with all its parts, and each of them passes its check. -/
theorem accepted_of_validate {program : List Declaration} {validated : Validated}
    (done : validate program = .ok validated) :
    ∃ parts, Parts.ofProgram? program = some parts ∧ parts.Accepted validated := by
  have slots := @Outline.slot_ofProgram program
  simp only [validate] at done
  generalize Outline.ofProgram program = summary at done slots
  rcases summary with ⟨outline, declared⟩
  rcases bind_eq_ok_iff.mp done with ⟨⟨shapeProblems, offsets⟩, shaped, done⟩
  rcases bind_eq_ok_iff.mp done with ⟨checked, ruled, done⟩
  rw [mapError_eq_ok_iff] at shaped ruled
  split at done
  case h_2 => exact absurd done (by simp [throw, throwThe, MonadExceptOf.throw])
  rename_i _ name space list registry boundary clean spaced listed registered edged
  obtain rfl := pure_eq_ok_iff.mp done
  clear done
  dsimp only at spaced listed registered edged ruled clean slots shaped
  rcases Option.map_eq_some_iff.mp registered with ⟨states, found, rfl⟩
  rcases Option.map_eq_some_iff.mp found with ⟨⟨block, entries⟩, stated, rfl⟩
  simp only [spaced, stated, Option.map_some, Option.getD_some, List.append_eq_nil_iff]
    at edged ruled clean
  rcases clean with ⟨⟨⟨⟨⟨⟨rfl, none_missing⟩, spaceFine⟩, rfl⟩, statesFine⟩, edgeFine⟩, rulesFine⟩
  subst listed
  obtain ⟨place, shape, shapeGiven, shapeFine, offsetsListed, nonempty⟩ :=
    checkOffsets_eq_ok spaced shaped
  have ruledEdge := checkEdge_eq (Prod.ext edgeFine edged)
  obtain ⟨value, assigned⟩ := declares_of_missingKeys none_missing
    (by decide : Key.rules ∈ Key.required)
  have known := slots rfl
  have given : ∃ rules, outline.rules = some rules := by
    rw [← known .rules, Outline.slot] at assigned
    rcases Option.map_eq_some_iff.mp assigned with ⟨rules, given, _⟩
    exact ⟨rules, given⟩
  rcases given with ⟨⟨head, rules⟩, rulesGiven⟩
  simp only [Outline.checkRules, rulesGiven] at ruled
  refine ⟨⟨space, shape, (outline.boundary.map Prod.snd).getD .void, entries, rules⟩, ?_, ?_⟩
  · simp only [Parts.ofProgram?, ← known, Outline.slot, spaced, shapeGiven, stated, rulesGiven,
      Option.map_some]
    cases outline.boundary <;> rfl
  · exact {
      rank := rfl
      sizes := rfl
      space := spaceFine
      shape := shapeFine
      offsets := offsetsListed
      nonempty := nonempty
      entries := statesFine
      registry := rfl
      boundary := ruledEdge
      rules := by rw [← rulesFine]; exact ruled }

end Cellular
