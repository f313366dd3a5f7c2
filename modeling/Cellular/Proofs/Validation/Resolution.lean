import Cellular.Proofs.Condition.Printed
import Cellular.Proofs.Outcome
import Cellular.Validation.Resolution

/-!
# Resolved conditions

A resolved condition means what the condition meant: a chain of negations counts by its
parity, every node keeps its operands, and every test is resolved to a test that is true
exactly when it is.
-/

namespace Cellular.Condition

variable {α β π : Type} {leaf : α → Except TreeFault (List π × Option β)}

/-! ## Taking a resolution apart -/

/-- A condition is resolved to another one. -/
def ResolvesTo (leaf : α → Except TreeFault (List π × Option β)) (negate : Bool)
    (c : Condition α) (resolved : Condition β) : Prop :=
  ∃ problems, resolveBy leaf negate c = .ok (problems, some resolved)

theorem ResolvesTo.test {a : α} {negate : Bool} {resolved : Condition β}
    (done : ResolvesTo leaf negate (.test a) resolved) :
    ∃ problems b, leaf a = .ok (problems, some b) ∧ resolved = negateIf negate (.test b) := by
  rcases done with ⟨problems, done⟩
  rw [resolveBy, bind_eq_ok_iff] at done
  rcases done with ⟨⟨found, answer⟩, known, done⟩
  rcases Option.map_eq_some_iff.mp (Prod.mk.inj (Except.ok.inj done)).2 with ⟨b, rfl, rfl⟩
  exact ⟨found, b, known, rfl⟩

theorem ResolvesTo.not {c : Condition α} {negate : Bool} {resolved : Condition β}
    (done : ResolvesTo leaf negate (.not c) resolved) : ResolvesTo leaf (!negate) c resolved := by
  rcases done with ⟨problems, done⟩
  rw [resolveBy] at done
  exact ⟨problems, done⟩

private theorem resolveList_eq_ok {cs : List (Condition α)} {problems : List π}
    {resolved : List (Condition β)} (done : resolveList leaf cs = .ok (problems, some resolved)) :
    List.Forall₂ (ResolvesTo leaf false) cs resolved := by
  induction cs generalizing problems resolved with
  | nil =>
      rw [resolveList] at done
      obtain rfl := Option.some.inj (Prod.mk.inj (Except.ok.inj done)).2
      exact .nil
  | cons c cs ih =>
      rw [resolveList, bind_eq_ok_iff] at done
      rcases done with ⟨⟨found, first⟩, known, done⟩
      rw [bind_eq_ok_iff] at done
      rcases done with ⟨⟨others, rest⟩, known', done⟩
      rcases Option.bind_eq_some_iff.mp (Prod.mk.inj (Except.ok.inj done)).2 with ⟨r, rfl, both⟩
      rcases Option.map_eq_some_iff.mp both with ⟨rs, rfl, rfl⟩
      exact .cons ⟨found, known⟩ (ih known')

theorem ResolvesTo.all {cs : List (Condition α)} {negate : Bool} {resolved : Condition β}
    (done : ResolvesTo leaf negate (.all cs) resolved) :
    ∃ operands, List.Forall₂ (ResolvesTo leaf false) cs operands ∧
      resolved = negateIf negate (.all operands) := by
  rcases done with ⟨problems, done⟩
  rw [resolveBy, bind_eq_ok_iff] at done
  rcases done with ⟨⟨found, answer⟩, known, done⟩
  rcases Option.map_eq_some_iff.mp (Prod.mk.inj (Except.ok.inj done)).2 with ⟨operands, rfl, rfl⟩
  exact ⟨operands, resolveList_eq_ok known, rfl⟩

theorem ResolvesTo.any {cs : List (Condition α)} {negate : Bool} {resolved : Condition β}
    (done : ResolvesTo leaf negate (.any cs) resolved) :
    ∃ operands, List.Forall₂ (ResolvesTo leaf false) cs operands ∧
      resolved = negateIf negate (.any operands) := by
  rcases done with ⟨problems, done⟩
  rw [resolveBy, bind_eq_ok_iff] at done
  rcases done with ⟨⟨found, answer⟩, known, done⟩
  rcases Option.map_eq_some_iff.mp (Prod.mk.inj (Except.ok.inj done)).2 with ⟨operands, rfl, rfl⟩
  exact ⟨operands, resolveList_eq_ok known, rfl⟩

theorem ResolvesTo.ne_always {negate : Bool} {resolved : Condition β}
    (done : ResolvesTo leaf negate .always resolved) : False := by
  rcases done with ⟨problems, done⟩
  rw [resolveBy] at done
  exact absurd done (by simp)

private theorem forall₂_of_resolvesTo {motive : Bool → Condition α → Condition β → Prop}
    {cs : List (Condition α)} {operands : List (Condition β)}
    (parts : List.Forall₂ (ResolvesTo leaf false) cs operands)
    (each : ∀ c ∈ cs, ∀ negate resolved, ResolvesTo leaf negate c resolved →
      motive negate c resolved) : List.Forall₂ (motive false) cs operands := by
  induction parts with
  | nil => exact .nil
  | cons first _ ih =>
      rcases List.forall_mem_cons.mp each with ⟨head, others⟩
      exact .cons (head false _ first) (ih others)

/-- Induction on a resolution: a node inherits a property from its operands, none of which
stands below a negation any more. -/
theorem ResolvesTo.inductOn {motive : Bool → Condition α → Condition β → Prop}
    (test : ∀ negate a problems b, leaf a = .ok (problems, some b) →
      motive negate (.test a) (negateIf negate (.test b)))
    (not : ∀ negate c resolved, motive (!negate) c resolved → motive negate (.not c) resolved)
    (all : ∀ negate cs operands, List.Forall₂ (motive false) cs operands →
      motive negate (.all cs) (negateIf negate (.all operands)))
    (any : ∀ negate cs operands, List.Forall₂ (motive false) cs operands →
      motive negate (.any cs) (negateIf negate (.any operands)))
    {negate : Bool} {c : Condition α} {resolved : Condition β}
    (done : ResolvesTo leaf negate c resolved) : motive negate c resolved := by
  induction c using Condition.inductOn generalizing negate resolved with
  | test a =>
      rcases done.test with ⟨problems, b, known, rfl⟩
      exact test negate a problems b known
  | always => exact done.ne_always.elim
  | not c ih => exact not negate c resolved (ih done.not)
  | all cs ih =>
      rcases done.all with ⟨operands, parts, rfl⟩
      exact all negate cs operands
        (forall₂_of_resolvesTo parts fun c member _ _ done => ih c member done)
  | any cs ih =>
      rcases done.any with ⟨operands, parts, rfl⟩
      exact any negate cs operands
        (forall₂_of_resolvesTo parts fun c member _ _ done => ih c member done)

private theorem negateIf_ne_always {c : Condition β} (apart : c ≠ .always) (negate : Bool) :
    negateIf negate c ≠ .always := by
  cases negate with
  | false => exact apart
  | true => exact nofun

/-- What comes out of a resolution does not hold always. -/
theorem ResolvesTo.resolved_ne_always {negate : Bool} {c : Condition α} {resolved : Condition β}
    (done : ResolvesTo leaf negate c resolved) : resolved ≠ .always := by
  apply ResolvesTo.inductOn (motive := fun _ _ resolved => resolved ≠ .always) _ _ _ _ done
  · exact fun negate _ _ b _ => negateIf_ne_always (c := .test b) (by simp) negate
  · exact fun _ _ _ apart => apart
  · exact fun negate _ operands _ => negateIf_ne_always (c := .all operands) (by simp) negate
  · exact fun negate _ operands _ => negateIf_ne_always (c := .any operands) (by simp) negate

/-! ## Without problems -/

private theorem resolveList_isSome {cs : List (Condition α)}
    (each : ∀ c ∈ cs, ∀ negate answer, resolveBy leaf negate c = .ok ([], answer) → answer.isSome)
    {answer : Option (List (Condition β))} (done : resolveList leaf cs = .ok ([], answer)) :
    answer.isSome := by
  induction cs generalizing answer with
  | nil =>
      rw [resolveList] at done
      obtain rfl := (Prod.mk.inj (Except.ok.inj done)).2
      rfl
  | cons c cs ih =>
      rcases List.forall_mem_cons.mp each with ⟨head, others⟩
      rw [resolveList, bind_eq_ok_iff] at done
      rcases done with ⟨⟨found, first⟩, known, done⟩
      rw [bind_eq_ok_iff] at done
      rcases done with ⟨⟨more, rest⟩, known', done⟩
      rcases Prod.mk.inj (Except.ok.inj done) with ⟨clean, rfl⟩
      rcases List.append_eq_nil_iff.mp clean with ⟨rfl, rfl⟩
      rcases Option.isSome_iff_exists.mp (head false first known) with ⟨r, rfl⟩
      rcases Option.isSome_iff_exists.mp (ih others known') with ⟨rs, rfl⟩
      rfl

/-- A condition without problems is resolved, if tests without problems are. -/
theorem resolveBy_isSome
    (tests : ∀ a answer, leaf a = .ok ([], answer) → answer.isSome) {c : Condition α}
    {negate : Bool} {answer : Option (Condition β)}
    (done : resolveBy leaf negate c = .ok ([], answer)) : answer.isSome := by
  induction c using inductOn generalizing negate answer with
  | test a =>
      rw [resolveBy, bind_eq_ok_iff] at done
      rcases done with ⟨⟨found, resolved⟩, known, done⟩
      rcases Prod.mk.inj (Except.ok.inj done) with ⟨rfl, rfl⟩
      rw [Option.isSome_map]
      exact tests a resolved known
  | always =>
      rw [resolveBy] at done
      exact absurd done (by simp)
  | not c ih =>
      rw [resolveBy] at done
      exact ih done
  | all cs ih | any cs ih =>
      rw [resolveBy, bind_eq_ok_iff] at done
      rcases done with ⟨⟨found, resolved⟩, known, done⟩
      rcases Prod.mk.inj (Except.ok.inj done) with ⟨rfl, rfl⟩
      rw [Option.isSome_map]
      exact resolveList_isSome (fun c member negate answer done => ih c member done) known

/-! ## What is kept -/

private theorem branching_negateIf {least : Nat} {c : Condition β} (negate : Bool)
    (branching : c.Branching least) : (negateIf negate c).Branching least := by
  cases negate <;> exact branching

private theorem branchingAll_of_forall₂ {least : Nat} {cs : List (Condition α)}
    {operands : List (Condition β)}
    (parts : List.Forall₂ (fun c operand => c.Branching least → operand.Branching least)
      cs operands) (branching : BranchingAll least cs) : BranchingAll least operands := by
  induction parts with
  | nil => trivial
  | cons first _ ih =>
      rcases branching with ⟨head, others⟩
      exact ⟨first head, ih others⟩

/-- Resolving keeps the number of operands of every node. -/
theorem ResolvesTo.branching {least : Nat} {c : Condition α} {negate : Bool}
    {resolved : Condition β} (done : ResolvesTo leaf negate c resolved)
    (branching : c.Branching least) : resolved.Branching least := by
  revert branching
  apply done.inductOn (motive := fun _ c resolved => c.Branching least → resolved.Branching least)
  · intro negate a problems b known _
    exact branching_negateIf negate trivial
  · intro negate c resolved kept branching
    exact kept branching
  · rintro negate cs operands parts ⟨enough, below⟩
    exact branching_negateIf negate ⟨parts.length_eq ▸ enough, branchingAll_of_forall₂ parts below⟩
  · rintro negate cs operands parts ⟨enough, below⟩
    exact branching_negateIf negate ⟨parts.length_eq ▸ enough, branchingAll_of_forall₂ parts below⟩

private theorem printable_negateIf {c : Condition β} (negate : Bool) (printable : c.Printable) :
    (negateIf negate c).Printable := by
  cases negate <;> exact printable

private theorem printableAll_of_forall₂ {cs : List (Condition α)} {operands : List (Condition β)}
    (parts : List.Forall₂ (fun c operand => c.Branching 1 → operand.Printable) cs operands)
    (branching : 1 ≤ cs.length ∧ BranchingAll 1 cs) : operands ≠ [] ∧ PrintableAll operands := by
  constructor
  · exact List.length_pos_iff.mp (parts.length_eq ▸ branching.1)
  · apply printableAll_iff.mpr
    intro operand member
    rcases exists_of_mem_right parts member with ⟨c, inside, kept⟩
    exact kept (branchingAll_iff.mp branching.2 c inside)

/-- A resolved condition is built from tests. -/
theorem ResolvesTo.printable {c : Condition α} {negate : Bool} {resolved : Condition β}
    (done : ResolvesTo leaf negate c resolved) (branching : c.Branching 1) :
    resolved.Printable := by
  revert branching
  apply done.inductOn (motive := fun _ c resolved => c.Branching 1 → resolved.Printable)
  · intro negate a problems b known _
    exact printable_negateIf negate trivial
  · intro negate c resolved kept branching
    exact kept branching
  · intro negate cs operands parts branching
    exact printable_negateIf negate (printableAll_of_forall₂ parts branching)
  · intro negate cs operands parts branching
    exact printable_negateIf negate (printableAll_of_forall₂ parts branching)

private theorem tests_negateIf (negate : Bool) (c : Condition β) :
    (negateIf negate c).tests = c.tests := by
  cases negate <;> rfl

private theorem forall₂_testsList {relation : α → β → Prop} {cs : List (Condition α)}
    {operands : List (Condition β)}
    (parts : List.Forall₂ (fun c operand => List.Forall₂ relation c.tests operand.tests)
      cs operands) : List.Forall₂ relation (testsList cs) (testsList operands) := by
  induction parts with
  | nil => exact .nil
  | cons first _ ih => exact List.rel_append first ih

/-- The tests of a resolved condition are those of the condition, resolved one by one from
left to right. -/
theorem ResolvesTo.forall₂_tests {negate : Bool} {c : Condition α} {resolved : Condition β}
    (done : ResolvesTo leaf negate c resolved) :
    List.Forall₂ (fun a b => ∃ problems, leaf a = .ok (problems, some b))
      c.tests resolved.tests := by
  apply done.inductOn (motive := fun _ c resolved => List.Forall₂ _ c.tests resolved.tests)
  · intro negate a problems b known
    rw [tests_negateIf]
    exact .cons ⟨problems, known⟩ .nil
  · intro negate c resolved same
    exact same
  · intro negate cs operands parts
    rw [tests_negateIf]
    exact forall₂_testsList parts
  · intro negate cs operands parts
    rw [tests_negateIf]
    exact forall₂_testsList parts

/-- Every test of a resolved condition is a resolved test. -/
theorem ResolvesTo.exists_test {c : Condition α} {negate : Bool} {resolved : Condition β}
    (done : ResolvesTo leaf negate c resolved) {b : β} (member : b ∈ resolved.tests) :
    ∃ a problems, leaf a = .ok (problems, some b) := by
  rcases exists_of_mem_right done.forall₂_tests member with ⟨a, _, known⟩
  exact ⟨a, known⟩

private theorem value_negateIf {truth : β → Bool} (negate : Bool) (c : Condition β) :
    (negateIf negate c).value truth = (negate ^^ c.value truth) := by
  cases negate with
  | false => exact (Bool.false_xor _).symm
  | true => exact (Bool.true_xor _).symm

section Truth

variable {before : α → Bool} {after : β → Bool}

private theorem map_value_of_forall₂ {cs : List (Condition α)} {operands : List (Condition β)}
    (parts : List.Forall₂ (fun c operand => operand.value after = (false ^^ c.value before))
      cs operands) : operands.map (value after) = cs.map (value before) := by
  induction parts with
  | nil => rfl
  | cons first _ ih => rw [List.map_cons, List.map_cons, first, Bool.false_xor, ih]

/-- A resolved condition has the truth value of the condition, if the resolved tests have
those of the tests. -/
theorem ResolvesTo.value {c : Condition α} {negate : Bool} {resolved : Condition β}
    (same : ∀ a problems b, leaf a = .ok (problems, some b) → after b = before a)
    (done : ResolvesTo leaf negate c resolved) :
    resolved.value after = (negate ^^ c.value before) := by
  apply done.inductOn
    (motive := fun negate c resolved => resolved.value after = (negate ^^ c.value before))
  · intro negate a problems b known
    rw [value_negateIf, Condition.value, same a problems b known, Condition.value]
  · intro negate c resolved folded
    rw [folded, Condition.value]
    cases negate <;> simp
  · intro negate cs operands parts
    have together := congrArg (List.all · id) (map_value_of_forall₂ parts)
    simp only [List.all_map, Function.id_comp] at together
    rw [value_negateIf, Condition.value, Condition.value, valueAll_eq, valueAll_eq, together]
  · intro negate cs operands parts
    have together := congrArg (List.any · id) (map_value_of_forall₂ parts)
    simp only [List.any_map, Function.id_comp] at together
    rw [value_negateIf, Condition.value, Condition.value, valueAny_eq, valueAny_eq, together]

end Truth

end Cellular.Condition
