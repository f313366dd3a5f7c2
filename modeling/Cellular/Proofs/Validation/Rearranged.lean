import Cellular.Proofs.Condition.Renamed
import Cellular.Proofs.Source.Anchored
import Cellular.Proofs.Validation.Accepted
import Cellular.Proofs.Validation.Keys

/-!
# Programs in another order and under other names

A program may be written differently without meaning anything else. Its declarations may
come in another order, and so may the states of its block; rules that start from different
states may trade places; and all states may be given other names. Where the names stand in a
text does not matter either.

A rearranged program has rearranged parts.
-/

namespace Cellular

/-! ## Other orders -/

section Orders

variable {α β : Type} {R : α → β → Prop} {p : α → Bool} {q : β → Bool}

/-- The items of two lists are related one by one once the first are put in some order. -/
def InSomeOrder (R : α → β → Prop) (items : List α) (others : List β) : Prop :=
  ∃ ordered, items.Perm ordered ∧ List.Forall₂ R ordered others

theorem InSomeOrder.exists_of_mem {items : List α} {others : List β}
    (related : InSomeOrder R items others) {b : β} (member : b ∈ others) : ∃ a ∈ items, R a b := by
  rcases related with ⟨ordered, perm, each⟩
  rcases exists_of_mem_right each member with ⟨a, inOrdered, own⟩
  exact ⟨a, perm.mem_iff.mpr inOrdered, own⟩

private theorem countP_of_forall₂ (agree : ∀ a b, R a b → p a = q b) {items : List α}
    {others : List β} (related : List.Forall₂ R items others) :
    others.countP q = items.countP p := by
  induction related with
  | nil => rfl
  | @cons a b _ _ own _ ih => rw [List.countP_cons, List.countP_cons, ih, agree a b own]

theorem InSomeOrder.countP_eq (agree : ∀ a b, R a b → p a = q b) {items : List α}
    {others : List β} (related : InSomeOrder R items others) :
    others.countP q = items.countP p := by
  rcases related with ⟨ordered, perm, each⟩
  rw [countP_of_forall₂ agree each, perm.countP_eq p]

/-- What occurs at most once is found in any order. -/
private theorem find?_of_perm {items others : List α} (perm : items.Perm others)
    (single : items.countP p ≤ 1) : others.find? p = items.find? p := by
  have kept := perm.filter p
  have same : others.filter p = items.filter p := by
    rw [List.countP_eq_length_filter] at single
    rcases found : items.filter p with _ | ⟨a, _ | ⟨b, rest⟩⟩
    · rw [found] at kept
      exact List.nil_perm.mp kept
    · rw [found] at kept
      exact (List.singleton_perm.mp kept).symm
    · rw [found] at single
      simp at single
  rw [← List.head?_filter, ← List.head?_filter, same]

private theorem find?_of_forall₂ (agree : ∀ a b, R a b → p a = q b) {items : List α}
    {others : List β} (related : List.Forall₂ R items others) :
    Option.Rel R (items.find? p) (others.find? q) := by
  induction related with
  | nil => exact .none
  | @cons a b _ _ own _ ih =>
      rw [List.find?_cons, List.find?_cons, ← agree a b own]
      cases p a with
      | true => exact .some own
      | false => exact ih

theorem InSomeOrder.find?_rel (agree : ∀ a b, R a b → p a = q b) {items : List α}
    {others : List β} (related : InSomeOrder R items others) (single : items.countP p ≤ 1) :
    Option.Rel R (items.find? p) (others.find? q) := by
  rcases related with ⟨ordered, perm, each⟩
  rw [← find?_of_perm perm single]
  exact find?_of_forall₂ agree each

theorem exists_of_rel {a : α} {answer : Option β} (related : Option.Rel R (some a) answer) :
    ∃ b, answer = some b ∧ R a b := by
  cases related with
  | some own => exact ⟨_, rfl, own⟩

end Orders

/-! ## Other names -/

/-- The same entry for a state with another name. -/
structure StateEntry.Renamed (rename : String → String) (entry other : StateEntry) : Prop where
  name : other.name.text = rename entry.name.text
  attributes : other.attributes.map Attribute.anchored = entry.attributes.map Attribute.anchored

/-- The same rules for states with other names. Those that start from one state keep their
order. -/
def RulesRearranged (rename : String → String) (rules others : List (Rule Name)) : Prop :=
  ∀ source : String, (others.map (Rule.map Name.text)).filter (·.source == source) =
    (rules.map (Rule.map fun state => rename state.text)).filter (·.source == source)

/-- The same value for states with other names. -/
inductive Value.Rearranged (rename : String → String) : Value → Value → Prop
  | environment {space other : Environment} (same : other.anchored = space.anchored) :
      Rearranged rename (.environment space) (.environment other)
  | neighborhood {shape other : Neighborhood} (same : other.anchored = shape.anchored) :
      Rearranged rename (.neighborhood shape) (.neighborhood other)
  | boundary {edge other : Boundary (Option Name)}
      (same : other.map (Option.map Name.text) =
        edge.map (Option.map fun state => rename state.text)) :
      Rearranged rename (.boundary edge) (.boundary other)
  | states {entries others : List StateEntry}
      (same : InSomeOrder (StateEntry.Renamed rename) entries others) :
      Rearranged rename (.states entries) (.states others)
  | rules {rules others : List (Rule Name)} (same : RulesRearranged rename rules others) :
      Rearranged rename (.rules rules) (.rules others)

/-- The same declaration for states with other names. -/
structure Declaration.Rearranged (rename : String → String) (declaration other : Declaration) :
    Prop where
  key : other.key.text = declaration.key.text
  value : Value.Rearranged rename declaration.value other.value

/-- The same program, in some other order and with other names for its states. -/
def Rearranged (rename : String → String) (first second : List Declaration) : Prop :=
  InSomeOrder (Declaration.Rearranged rename) first second

/-! ## Keys -/

variable {rename : String → String} {first second : List Declaration}

theorem Declaration.Rearranged.fits {declaration other : Declaration}
    (rearranged : declaration.Rearranged rename other) (fits : declaration.Fits) : other.Fits := by
  rcases rearranged with ⟨named, same⟩
  rcases declaration with ⟨name, value⟩
  rcases other with ⟨name', value'⟩
  rcases fits with ⟨key, known, takes⟩
  refine ⟨key, named.trans known, ?_⟩
  dsimp only at same takes ⊢
  cases same <;> cases key <;> trivial

namespace Rearranged

theorem fits (rearranged : Rearranged rename first second)
    (each : ∀ declaration ∈ first, declaration.Fits) :
    ∀ declaration ∈ second, declaration.Fits := by
  intro declaration member
  rcases InSomeOrder.exists_of_mem rearranged member with ⟨before, inFirst, own⟩
  exact own.fits (each before inFirst)

private theorem key_eq (key : Key) (declaration other : Declaration)
    (rearranged : declaration.Rearranged rename other) :
    (declaration.key.text == key.text) = (other.key.text == key.text) := by
  rw [rearranged.key]

theorem occurrences_eq (rearranged : Rearranged rename first second) (key : Key) :
    occurrences second key = occurrences first key :=
  InSomeOrder.countP_eq (key_eq key) rearranged

theorem valueOf_rel (rearranged : Rearranged rename first second) {key : Key}
    (single : occurrences first key ≤ 1) :
    Option.Rel (Value.Rearranged rename) (valueOf first key) (valueOf second key) := by
  have found := InSomeOrder.find?_rel (key_eq key) rearranged single
  rw [valueOf, valueOf]
  generalize first.find? _ = before at found
  generalize second.find? _ = after at found
  cases found with
  | none => exact .none
  | some own => exact .some own.value

end Rearranged

/-! ## Parts -/

/-- The same parts for states with other names. -/
structure Parts.Rearranged (rename : String → String) (parts other : Parts) : Prop where
  space : other.space.anchored = parts.space.anchored
  shape : other.shape.anchored = parts.shape.anchored
  edge : other.edge.map (Option.map Name.text) =
    parts.edge.map (Option.map fun state => rename state.text)
  entries : InSomeOrder (StateEntry.Renamed rename) parts.entries other.entries
  rules : RulesRearranged rename parts.rules other.rules

/-- If no key is declared twice, a rearranged program has rearranged parts. -/
theorem Rearranged.exists_parts (rearranged : Rearranged rename first second)
    (single : ∀ key, occurrences first key ≤ 1) {parts : Parts}
    (divided : Parts.ofProgram? first = some parts) :
    ∃ other, Parts.ofProgram? second = some other ∧ parts.Rearranged rename other := by
  have related := fun key => rearranged.valueOf_rel (single key)
  have edges := related .boundary
  rcases Parts.ofProgram?_eq_some_iff.mp divided with ⟨spaced, shaped, stated, ruled, bounded⟩
  rcases exists_of_rel (spaced ▸ related .environment) with ⟨_, spaced', ⟨sameSpace⟩⟩
  rcases exists_of_rel (shaped ▸ related .neighborhood) with ⟨_, shaped', _ | ⟨sameShape⟩⟩
  rcases exists_of_rel (stated ▸ related .states) with ⟨_, stated', _ | _ | _ | ⟨sameEntries⟩⟩
  rcases exists_of_rel (ruled ▸ related .rules) with ⟨_, ruled', _ | _ | _ | _ | ⟨sameRules⟩⟩
  refine ⟨⟨_, _, _, _, _⟩, Parts.ofProgram?_eq_some_iff.mpr
    ⟨spaced', shaped', stated', ruled', rfl⟩, sameSpace, sameShape, ?_, sameEntries, sameRules⟩
  rw [← bounded]
  generalize valueOf first .boundary = before at edges
  generalize valueOf second .boundary = after at edges
  cases edges with
  | none => rfl
  | some own =>
      cases own with
      | boundary same => exact same
      | _ => rfl

end Cellular
