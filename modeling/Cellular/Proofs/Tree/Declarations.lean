import Cellular.Proofs.Tree.Findings
import Cellular.Proofs.Validation.Keys

/-!
# Declarations as trees

The declarations of a tree that count are those that fill the slots of the outline, and the
others have the same problems: a key is unknown, takes values of another kind, or is declared
already.
-/

namespace Cellular

/-! ## What the outline was told -/

namespace Outline

/-- The declaration that filled the slot of a key. -/
def entry (outline : Outline) : Key → Option (Name × Value)
  | .environment => outline.environment.map fun (key, space) => (key, .environment space)
  | .neighborhood => outline.neighborhood.map fun (key, shape) => (key, .neighborhood shape)
  | .states => outline.states.map fun (key, block) => (key, .states block)
  | .rules => outline.rules.map fun (key, block) => (key, .rules block)
  | .boundary => outline.boundary.map fun (key, edge) => (key, .boundary edge)

variable {outline : Outline} {name : Name} {value : Value} {key : Key}

theorem add_of_unknown (unknown : Key.ofText? name.text = none) :
    outline.add ⟨name, value⟩ = .error (.unknownKey name) := by
  rw [add, unknown]

theorem add_of_wrong (known : Key.ofText? name.text = some key) (wrong : ¬key.Takes value) :
    outline.add ⟨name, value⟩ = .error (.wrongKind name key) := by
  rw [add, known]
  cases key <;> cases value <;> first | rfl | exact absurd trivial wrong

theorem add_of_taken (known : Key.ofText? name.text = some key) (takes : key.Takes value)
    {first : Name} {other : Value} (taken : outline.entry key = some (first, other)) :
    outline.add ⟨name, value⟩ = .error (.repeatedKey first name) := by
  rw [add, known]
  cases key <;> cases value <;> first
    | exact takes.elim
    | rcases Option.map_eq_some_iff.mp taken with ⟨⟨own, _⟩, filled, same⟩
      obtain rfl := (Prod.mk.inj same).1
      simp only [filled, fillSlot]
      rfl

theorem add_of_free (known : Key.ofText? name.text = some key) (takes : key.Takes value)
    (free : outline.entry key = none) :
    ∃ next, outline.add ⟨name, value⟩ = .ok next ∧ next.entry key = some (name, value) ∧
      ∀ other, other ≠ key → next.entry other = outline.entry other := by
  rw [add, known]
  cases key <;> cases value <;> first
    | exact takes.elim
    | rw [entry, Option.map_eq_none_iff] at free
      simp only [free, fillSlot]
      refine ⟨_, rfl, rfl, ?_⟩
      intro other different
      cases other <;> first | rfl | exact absurd rfl different

end Outline

namespace Tree

/-! ## Kinds of values -/

/-- The tag of the tree of a value. -/
def kindOf : Value → String
  | .environment _ => "ENVIRONMENT"
  | .neighborhood .moore => "MOORE"
  | .neighborhood .vonNeumann => "VON_NEUMANN"
  | .neighborhood (.custom _) => "CUSTOM"
  | .boundary .void => "VOID"
  | .boundary .wrap => "WRAP"
  | .boundary (.static _) => "STATIC"
  | .states _ => "STATES"
  | .rules _ => "RULES"

theorem tag_value (value : Value) : (value.tree Name.word).tag = .ok (word (kindOf value)) := by
  cases value with
  | neighborhood shape => cases shape <;> rfl
  | boundary edge => cases edge <;> rfl
  | _ => rfl

theorem any_tagsOf_iff (key : Key) (value : Value) :
    (tagsOf key).any (word (kindOf value)).isWord = true ↔ key.Takes value := by
  cases value with
  | neighborhood shape => cases key <;> cases shape <;> simp [tagsOf, kindOf, Key.Takes]
  | boundary edge => cases key <;> cases edge <;> simp [tagsOf, kindOf, Key.Takes]
  | _ => cases key <;> simp [tagsOf, kindOf, Key.Takes]

/-! ## Slots -/

/-- The declarations that count are those of the outline. -/
def Slots.Shows (slots : Slots) (outline : Outline) : Prop :=
  ∀ key, slots.find key =
    (outline.entry key).map fun (name, value) => (name.word, value.tree Name.word)

/-- One more declaration that counts shows in the slot of its key. -/
theorem Slots.Shows.snoc {slots : Slots} {outline next : Outline} (shows : slots.Shows outline)
    {key : Key} {name : Name} {value : Value} (free : outline.entry key = none)
    (filled : next.entry key = some (name, value))
    (others : ∀ other, other ≠ key → next.entry other = outline.entry other) :
    Slots.Shows (slots ++ [(key, name.word, value.tree Name.word)]) next := by
  intro other
  rw [Slots.find, List.lookup_append, ← Slots.find, shows]
  by_cases same : other = key
  · subst same
    rw [free, filled]
    rw [List.lookup_cons_self]
    rfl
  · rw [others other same, List.lookup_cons, beq_false_of_ne same]
    simp

/-- Adds a declaration to the outline, or notes its problem. -/
private def added (told : Outline × List Problem) (declaration : Declaration) :
    Outline × List Problem :=
  match told.1.add declaration with
  | .ok outline => (outline, told.2)
  | .error problem => (told.1, told.2 ++ [problem])

/-- A declaration that the outline refuses counts for nothing. -/
private theorem added_of_error {told : Outline × List Problem} {declaration : Declaration}
    {problem : Problem} (refused : told.1.add declaration = .error problem) :
    added told declaration = (told.1, told.2 ++ [problem]) := by
  rw [added, refused]

/-- A declaration counts exactly if the outline has room for it. -/
theorem addDeclaration_tree {slots : Slots} {told : Outline × List Problem}
    (shows : slots.Shows told.1) (declaration : Declaration) :
    ∃ next found, Finds (addDeclaration slots (declaration.tree Name.word)) found next ∧
      next.Shows (added told declaration).1 ∧
      (added told declaration).2 = told.2 ++ found := by
  rcases declaration with ⟨name, value⟩
  have opened : (Declaration.tree Name.word ⟨name, value⟩).triple =
      .ok (word "ASSIGN", name.word, value.tree Name.word) := rfl
  have refused (problem : Problem)
      (refuses : told.1.add ⟨name, value⟩ = .error problem)
      (finds : Finds (addDeclaration slots (Declaration.tree Name.word ⟨name, value⟩))
        [problem] slots) :
      ∃ next found, Finds (addDeclaration slots (Declaration.tree Name.word ⟨name, value⟩))
          found next ∧
        next.Shows (added told ⟨name, value⟩).1 ∧
        (added told ⟨name, value⟩).2 = told.2 ++ found := by
    rw [added_of_error refuses]
    exact ⟨slots, [problem], finds, shows, rfl⟩
  have noted (problem : Problem) :
      Finds (note [problem.bare] >>= fun _ => pure slots) [problem] slots :=
    (Finds.problems [problem]).returning fun _ => slots
  cases known : Key.ofText? name.text with
  | none =>
      apply refused _ (Outline.add_of_unknown known)
      apply Finds.after opened
      simp only [Name.text_word, known]
      exact noted (.unknownKey name)
  | some key =>
      by_cases takes : key.Takes value
      · have kind := (any_tagsOf_iff key value).mpr takes
        cases entry : told.1.entry key with
        | some first =>
            rcases first with ⟨first, other⟩
            have found : slots.find key = some (first.word, other.tree Name.word) := by
              rw [shows, entry]
              rfl
            apply refused _ (Outline.add_of_taken known takes entry)
            apply Finds.after opened
            simp only [Name.text_word, known]
            apply Finds.after (tag_value value)
            simp only [kind, found]
            exact noted (.repeatedKey first name)
        | none =>
            have found : slots.find key = none := by
              rw [shows, entry]
              rfl
            rcases Outline.add_of_free known takes entry with ⟨next, adds, filled, others⟩
            have counted : Finds (addDeclaration slots (Declaration.tree Name.word ⟨name, value⟩))
                [] (slots ++ [(key, name.word, value.tree Name.word)]) := by
              apply Finds.after opened
              simp only [Name.text_word, known]
              apply Finds.after (tag_value value)
              simp only [kind, found]
              exact Finds.nothing _
            rw [added, adds]
            exact ⟨_, [], counted, shows.snoc entry filled others, (List.append_nil _).symm⟩
      · have kind : (tagsOf key).any (word (kindOf value)).isWord = false :=
          Bool.eq_false_iff.mpr fun fits => takes ((any_tagsOf_iff key value).mp fits)
        apply refused _ (Outline.add_of_wrong known takes)
        apply Finds.after opened
        simp only [Name.text_word, known]
        apply Finds.after (tag_value value)
        rw [kind]
        exact noted (.wrongKind name key)

/-- What is collected of a program is its outline, with all problems of its keys. -/
theorem collect_tree (program : List Declaration) :
    ∃ slots, Finds (collect (program.map (Declaration.tree Name.word)))
      ((Outline.ofProgram program).2 ++ missingKeys program) slots ∧
      slots.Shows (Outline.ofProgram program).1 := by
  have empty : Slots.Shows [] (({}, []) : Outline × List Problem).1 := by
    intro key
    cases key <;> rfl
  have outline : Outline.ofProgram program = program.foldl added ({}, []) := rfl
  have each (told : Outline × List Problem) (slots : Slots) (shows : slots.Shows told.1)
      (declaration : Declaration) (_ : declaration ∈ program) :=
    addDeclaration_tree shows declaration
  rcases Finds.foldlM each empty with ⟨slots, found, counted, shows, known⟩
  have keys : Finds ((program.map (Declaration.tree Name.word)).mapM fun tree =>
      liftM tree.triple >>= fun parts => pure parts.2.1.text) (program.flatMap fun _ => [])
        (program.map (·.key.text)) := by
    apply Finds.mapM
    intro declaration _
    exact Finds.after rfl (Finds.nothing declaration.key.text)
  have absent (key : Key) : (!(program.map (·.key.text)).contains key.text) =
      !program.any fun declaration => declaration.key.text == key.text := by
    simp only [List.contains_eq_any_beq, List.any_map, Function.comp_def, Bool.beq_comm]
  have rest : Finds (note ((Key.required.filter fun key =>
      !(program.map (·.key.text)).contains key.text).map .missingKey) >>= fun _ => pure slots)
        (missingKeys program) slots := by
    have missing := (Finds.problems (missingKeys program)).returning fun _ => slots
    rw [missingKeys, List.map_map] at missing
    simp only [absent]
    exact missing
  have quiet : program.flatMap (fun _ => ([] : List Problem)) = [] := by simp
  have problems : (Outline.ofProgram program).2 = found := known
  rw [quiet] at keys
  rw [problems]
  exact ⟨slots, counted.bind (keys.bind rest), shows⟩

end Tree

end Cellular
