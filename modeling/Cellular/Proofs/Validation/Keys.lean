import Cellular.Proofs.Validation.Outline

/-!
# Keys of a program

The declarations of a program have no problems exactly if every one of them has a known key
with a value that the key takes, and no key occurs twice. Then the required keys are those
that occur at least once, and the parts of the program are what is assigned to its keys.
-/

namespace Cellular

/-- A key takes a value of its kind. -/
def Key.Takes : Key → Value → Prop
  | .environment, .environment _ | .neighborhood, .neighborhood _ | .states, .states _
  | .rules, .rules _ | .boundary, .boundary _ => True
  | _, _ => False

/-- A declaration with a known key and a value that the key takes. -/
def Declaration.Fits (declaration : Declaration) : Prop :=
  ∃ key : Key, declaration.key.text = key.text ∧ key.Takes declaration.value

/-- How often a key is declared. -/
def occurrences (program : List Declaration) (key : Key) : Nat :=
  program.countP fun declaration => declaration.key.text == key.text

theorem occurrences_cons (declaration : Declaration) (program : List Declaration) (key : Key) :
    occurrences (declaration :: program) key =
      occurrences program key + if declaration.key.text = key.text then 1 else 0 := by
  simp only [occurrences, List.countP_cons, beq_iff_eq]

theorem Key.ofText?_text (key : Key) : ofText? key.text = some key := by
  cases key <;> rfl

namespace Outline

theorem fits_of_add {outline next : Outline} {declaration : Declaration}
    (added : outline.add declaration = .ok next) : declaration.Fits := by
  rcases declaration with ⟨name, value⟩
  simp only [add] at added
  split at added
  · exact absurd added (by simp)
  rename_i key known
  refine ⟨key, Key.text_eq_of_ofText? known, ?_⟩
  split at added
  case h_6 => exact absurd added (by simp)
  all_goals trivial

/-- A declaration that fits fills the slot of its key if the slot is free. -/
theorem exists_add {outline : Outline} {declaration : Declaration} {key : Key}
    (named : declaration.key.text = key.text) (takes : key.Takes declaration.value)
    (free : outline.slot key = none) : ∃ next, outline.add declaration = .ok next := by
  rcases declaration with ⟨name, value⟩
  dsimp only at named takes
  simp only [add, named, Key.ofText?_text]
  cases key <;> cases value <;> try exact takes.elim
  all_goals
    rw [slot, Option.map_eq_none_iff] at free
    rw [free]
    exact ⟨_, rfl⟩

/-- How many values the outline has for a key. -/
def filled (outline : Outline) (key : Key) : Nat :=
  if (outline.slot key).isSome then 1 else 0

theorem filled_le_one (outline : Outline) (key : Key) : outline.filled key ≤ 1 := by
  rw [filled]
  split <;> omega

/-- A declaration that is added counts for its key. -/
theorem filled_of_add {outline next : Outline} {declaration : Declaration}
    (added : outline.add declaration = .ok next) (key : Key) :
    next.filled key = outline.filled key + if declaration.key.text = key.text then 1 else 0 := by
  rcases slot_of_add added with ⟨own, named, free, taken, others⟩
  by_cases same : key = own
  · subst same
    rw [filled, filled, taken, free, if_pos named]
    rfl
  · have other : ¬declaration.key.text = key.text :=
      fun texts => same (Key.text_injective (texts.symm.trans named))
    rw [filled, filled, others key same, if_neg other, Nat.add_zero]

private theorem clean_foldl_iff {program : List Declaration} {start : Outline}
    {problems : List Problem} :
    (program.foldl
      (fun (outline, problems) declaration =>
        match outline.add declaration with
        | .ok outline => (outline, problems)
        | .error problem => (outline, problems ++ [problem]))
      (start, problems)).2 = [] ↔
        problems = [] ∧ (∀ declaration ∈ program, declaration.Fits) ∧
          ∀ key, start.filled key + occurrences program key ≤ 1 := by
  induction program generalizing start problems with
  | nil =>
      have room : ∀ key, start.filled key + occurrences [] key ≤ 1 := start.filled_le_one
      simp only [List.foldl_nil, List.not_mem_nil, false_imp_iff, implies_true, room, and_true]
  | cons declaration program ih =>
      rw [List.foldl_cons]
      cases added : start.add declaration with
      | error problem =>
          simp only [added, ih, List.append_eq_nil_iff, List.cons_ne_nil, and_false, false_and,
            false_iff]
          rintro ⟨_, fits, once⟩
          rcases fits declaration List.mem_cons_self with ⟨key, named, takes⟩
          have bound := once key
          rw [occurrences_cons, if_pos named] at bound
          have free : start.slot key = none := by
            by_contra taken
            rw [filled, if_pos (Option.isSome_iff_ne_none.mpr taken)] at bound
            omega
          rcases exists_add named takes free with ⟨next, possible⟩
          exact absurd (added.symm.trans possible) (by simp)
      | ok next =>
          have counts : ∀ key, next.filled key + occurrences program key =
              start.filled key + occurrences (declaration :: program) key := by
            intro key
            rw [filled_of_add added, occurrences_cons]
            omega
          simp only [added, ih, counts, List.forall_mem_cons, fits_of_add added, true_and]

/-- The declarations of a program have no problems exactly if each of them fits and no key
is declared twice. -/
theorem clean_ofProgram_iff {program : List Declaration} :
    (ofProgram program).2 = [] ↔
      (∀ declaration ∈ program, declaration.Fits) ∧ ∀ key, occurrences program key ≤ 1 := by
  have empty : ∀ key, ({} : Outline).filled key = 0 := by
    intro key
    cases key <;> rfl
  apply clean_foldl_iff.trans
  simp only [empty, Nat.zero_add, true_and]

end Outline

/-- A key has a value exactly if it is declared. -/
theorem isSome_valueOf_iff {program : List Declaration} {key : Key} :
    (valueOf program key).isSome = true ↔ 1 ≤ occurrences program key := by
  rw [valueOf, Option.isSome_map, List.find?_isSome, occurrences, Nat.succ_le_iff,
    List.countP_pos_iff]

/-- No key is missing exactly if every required key is declared. -/
theorem missingKeys_eq_nil_iff {program : List Declaration} :
    missingKeys program = [] ↔ ∀ key ∈ Key.required, 1 ≤ occurrences program key := by
  rw [missingKeys, List.map_eq_nil_iff, List.filter_eq_nil_iff]
  refine forall₂_congr fun key _ => ?_
  rw [Bool.not_eq_true', Bool.not_eq_false, List.any_eq_true, occurrences, Nat.succ_le_iff,
    List.countP_pos_iff]

end Cellular
