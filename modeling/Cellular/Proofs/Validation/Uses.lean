import Cellular.Proofs.Condition.Paths
import Cellular.Proofs.Outcome
import Cellular.Proofs.Source.Readable
import Cellular.Proofs.Validation.Block

/-!
# Sensible boundaries and rules

A boundary or a rule makes sense if the states that it names are declared. Moreover a
static boundary that names none needs a default state, the conditions of rules are not
nested too deep, and their bounds are possible counts. Whatever the states are, the checks
of boundaries and of rules that were read come to an end, and they find a problem exactly
where something does not make sense.
-/

namespace Cellular

/-- A static boundary names a declared state, or it names none and some state is marked as
the default. -/
def SensibleEdge (entries : List StateEntry) : Boundary (Option Name) → Prop
  | .void | .wrap => True
  | .static none => ∃ entry ∈ entries, .defaultMark ∈ entry.attributes
  | .static (some state) => state.text ∈ entries.map (·.name.text)

/-- A rule of declared states, with a condition that is not nested too deep and compares
declared states with possible counts. -/
structure Rule.Sensible (names : List String) (most : Nat) (rule : Rule Name) : Prop where
  source : rule.source.text ∈ names
  target : rule.target.text ∈ names
  paths : ∀ nodes, rule.condition.HasPath nodes → nodes ≤ 63
  tests : ∀ test ∈ rule.condition.tests,
    test.state.text ∈ names ∧ 0 ≤ test.bound ∧ test.bound ≤ most

theorem Registry.declares_iff_mem {registry : Registry} {name : String} :
    registry.declares name = true ↔ name ∈ registry.names := by
  rw [declares_iff, mem_names_iff]

/-! ## Boundaries -/

/-- The check of a boundary gives either its problem or its resolved form. -/
theorem checkBoundary_eq_nil_iff {registry : Registry} {key : Name}
    {edge : Boundary (Option Name)} :
    (checkBoundary registry key edge).1 = [] ↔
      ∃ boundary, (checkBoundary registry key edge).2 = some boundary := by
  match edge with
  | .void | .wrap => simp [checkBoundary]
  | .static none => cases default : registry.default? <;> simp [checkBoundary, default]
  | .static (some state) =>
      cases known : registry.indexOf? state.text <;> simp [checkBoundary, known]

theorem exists_marked_iff {entries : List StateEntry} :
    (∃ entry ∈ entries, .defaultMark ∈ entry.attributes) ↔
      (entries.find? StateEntry.marked).isSome = true := by
  simp only [List.find?_isSome, StateEntry.marked, List.contains_iff_mem]

/-- If nothing is wrong with the states, a boundary has no problem exactly if it makes
sense. -/
theorem checkBoundary_clean_iff {entries : List StateEntry}
    (clean : (checkStates entries).problems = []) {key : Name} {edge : Boundary (Option Name)} :
    (checkBoundary (checkStates entries).registry key edge).1 = [] ↔
      SensibleEdge entries edge := by
  match edge with
  | .void | .wrap => simp [checkBoundary, SensibleEdge]
  | .static none =>
      have known := congrArg Option.isSome (default?_checkStates clean)
      rw [Option.isSome_map, Option.isSome_map] at known
      rw [SensibleEdge, exists_marked_iff, ← known]
      cases default : (checkStates entries).registry.default? <;> simp [checkBoundary, default]
  | .static (some state) =>
      rw [SensibleEdge, ← names_checkStates clean, Registry.mem_names_iff]
      cases known : (checkStates entries).registry.indexOf? state.text <;>
        simp [checkBoundary, known]

/-! ## Conditions -/

section Conditions

variable {β π : Type} {leaf : CountTest Name → Except TreeFault (List π × Option β)}
  {found : CountTest Name → List π}

private theorem resolveList_problems {cs : List (Condition (CountTest Name))}
    (each : ∀ c ∈ cs, ∀ negate, ∃ resolved,
      Condition.resolveBy leaf negate c = .ok (c.tests.flatMap found, resolved)) :
    ∃ resolved, Condition.resolveList leaf cs =
      .ok ((Condition.testsList cs).flatMap found, resolved) := by
  induction cs with
  | nil => exact ⟨some [], rfl⟩
  | cons c cs ih =>
      rcases List.forall_mem_cons.mp each with ⟨head, others⟩
      rcases head false with ⟨first, done⟩
      rcases ih others with ⟨rest, further⟩
      rw [Condition.resolveList, done, further, Condition.testsList, List.flatMap_append]
      exact ⟨_, rfl⟩

/-- A condition that was read is resolved with the problems of its tests from left to
right. -/
theorem Condition.Readable.resolveBy_problems {c : Condition (CountTest Name)}
    (tests : ∀ a, ∃ b, leaf a = .ok (found a, b)) (readable : c.Readable) (negate : Bool) :
    ∃ resolved, resolveBy leaf negate c = .ok (c.tests.flatMap found, resolved) := by
  induction c using inductOn generalizing negate with
  | test a =>
      rcases tests a with ⟨b, known⟩
      rw [resolveBy, known, Condition.tests, List.flatMap_singleton]
      exact ⟨_, rfl⟩
  | always => exact readable.elim
  | not c ih => exact ih readable (!negate)
  | all cs ih | any cs ih =>
      rcases readable with ⟨_, operands⟩
      rw [readableAll_iff] at operands
      rcases resolveList_problems fun c member => ih c member (operands c member) with
        ⟨resolved, done⟩
      rw [resolveBy, done, Condition.tests]
      exact ⟨_, rfl⟩

end Conditions

theorem CountTest.problems_eq_nil_iff {registry : Registry} {most : Nat}
    {test : CountTest Name} :
    test.problems registry (some most) = [] ↔
      test.state.text ∈ registry.names ∧ 0 ≤ test.bound ∧ test.bound ≤ most := by
  rw [problems, List.append_eq_nil_iff, ← Registry.declares_iff_mem]
  simp [isReachable]

/-! ## Rules -/

variable {registry : Registry} {most : Option Nat}

private theorem roleProblems_eq_nil_iff {role : Role} {state : Name} :
    roleProblems registry role state = [] ↔ state.text ∈ registry.names := by
  rw [roleProblems, ← Registry.declares_iff_mem]
  simp

/-- The check of a rule that was read comes to an end. -/
theorem Rule.Readable.exists_resolve {rule : Rule Name} (readable : rule.Readable) :
    ∃ problems resolved, rule.resolve registry most = .ok (problems, resolved) := by
  rcases readable.condition.resolveBy_problems
    (fun test => ⟨test.resolve registry most, rfl⟩) false with ⟨condition, done⟩
  rw [Rule.resolve, Condition.resolve, done]
  split <;> exact ⟨_, _, rfl⟩

/-- A rule that was read has no problem exactly if it makes sense. -/
theorem Rule.Readable.clean_iff {rule : Rule Name} (readable : rule.Readable) {limit : Nat}
    {problems : List Problem} {resolved : Option (Rule Nat)}
    (done : rule.resolve registry (some limit) = .ok (problems, resolved)) :
    problems = [] ↔ rule.Sensible registry.names limit := by
  rcases readable.condition.resolveBy_problems
    (fun test => ⟨test.resolve registry (some limit), rfl⟩) false with ⟨condition, known⟩
  have branching := readable.condition.branching.mono (Nat.le_succ 1)
  have shallow : rule.condition.depth ≤ maxDepth ↔
      ∀ nodes, rule.condition.HasPath nodes → nodes ≤ 63 :=
    Condition.depth_le_iff branching
  rw [Rule.resolve, Condition.resolve, known] at done
  constructor
  · rintro rfl
    split at done
    · exact absurd (Prod.mk.inj (Except.ok.inj done)).1 (by simp)
    · rename_i bounded
      have clean := (Prod.mk.inj (Except.ok.inj done)).1
      simp only [List.append_eq_nil_iff, roleProblems_eq_nil_iff, List.flatMap_eq_nil_iff,
        CountTest.problems_eq_nil_iff] at clean
      rcases clean with ⟨⟨source, target⟩, tests⟩
      exact ⟨source, target, shallow.mp (Nat.le_of_not_lt bounded), tests⟩
  · rintro ⟨source, target, paths, tests⟩
    rw [if_neg (Nat.not_lt.mpr (shallow.mpr paths))] at done
    rw [← (Prod.mk.inj (Except.ok.inj done)).1]
    simp only [List.append_eq_nil_iff, roleProblems_eq_nil_iff, List.flatMap_eq_nil_iff,
      CountTest.problems_eq_nil_iff]
    exact ⟨⟨source, target⟩, tests⟩

/-- The check of rules that were read comes to an end. -/
theorem exists_checkRules {rules : List (Rule Name)} (readable : ∀ rule ∈ rules, rule.Readable) :
    ∃ checked, checkRules registry most rules = .ok checked := by
  induction rules with
  | nil => exact ⟨{}, rfl⟩
  | cons rule rules ih =>
      rcases List.forall_mem_cons.mp readable with ⟨first, others⟩
      rcases first.exists_resolve with ⟨problems, resolved, done⟩
      rcases ih others with ⟨checked, further⟩
      rw [checkRules, done, further]
      exact ⟨_, rfl⟩

/-- Rules that were read have no problems exactly if each of them makes sense. -/
theorem checkRules_clean_iff {rules : List (Rule Name)} {limit : Nat} {checked : CheckedRules}
    (readable : ∀ rule ∈ rules, rule.Readable)
    (done : checkRules registry (some limit) rules = .ok checked) :
    checked.problems = [] ↔ ∀ rule ∈ rules, rule.Sensible registry.names limit := by
  induction rules generalizing checked with
  | nil =>
      obtain rfl := Except.ok.inj done
      simp
  | cons rule rules ih =>
      rcases List.forall_mem_cons.mp readable with ⟨first, others⟩
      rw [checkRules] at done
      rcases bind_eq_ok_iff.mp done with ⟨⟨problems, resolved⟩, known, done⟩
      rcases bind_eq_ok_iff.mp done with ⟨rest, further, done⟩
      obtain rfl := pure_eq_ok_iff.mp done
      rw [List.append_eq_nil_iff, first.clean_iff known, ih others further, List.forall_mem_cons]

end Cellular
