import Cellular.Proofs.States.Registry
import Cellular.Proofs.Validation.Resolution
import Cellular.Validation.Basic

/-!
# Rules without problems

If none of the rules of a program has a problem, each of them is resolved, in its place:
its states become numbers, and its condition says about the counts by number what it said
about the counts by name.
-/

namespace Cellular

/-- How a test of a rule is resolved. -/
def CountTest.leaf (registry : Registry) (most : Option Nat) (test : CountTest Name) :
    Except TreeFault (List Problem × Option (CountTest Nat)) :=
  .ok (test.problems registry most, test.resolve registry most)

/-- A rule is resolved to a rule by number. -/
structure Rule.ResolvesTo (registry : Registry) (most : Option Nat) (rule : Rule Name)
    (resolved : Rule Nat) : Prop where
  source : registry.indexOf? rule.source.text = some resolved.source
  target : registry.indexOf? rule.target.text = some resolved.target
  condition : rule.condition.ResolvesTo (CountTest.leaf registry most) false resolved.condition

variable {registry : Registry} {most : Option Nat}

private theorem isSome_of_leaf (test : CountTest Name) (answer : Option (CountTest Nat))
    (clean : test.leaf registry most = .ok ([], answer)) : answer.isSome := by
  rcases Prod.mk.inj (Except.ok.inj clean) with ⟨fine, rfl⟩
  rcases List.append_eq_nil_iff.mp fine with ⟨named, bounded⟩
  have reachable : isReachable most test.bound = true := by
    cases most with
    | none => rfl
    | some limit =>
        by_cases inside : isReachable (some limit) test.bound = true
        · exact inside
        · exact absurd bounded (by simp [inside])
  have declared : registry.declares test.state.text = true := by
    by_cases known : registry.declares test.state.text = true
    · exact known
    · exact absurd named (by simp [known])
  rcases Registry.declares_iff.mp declared with ⟨i, known⟩
  rw [CountTest.resolve, if_pos reachable, known]
  rfl

private theorem indexOf?_of_roleProblems {role : Role} {state : Name}
    (clean : roleProblems registry role state = []) :
    ∃ i, registry.indexOf? state.text = some i := by
  apply Registry.declares_iff.mp
  by_cases known : registry.declares state.text = true
  · exact known
  · exact absurd clean (by simp [roleProblems, known])

/-- A rule without problems is resolved. -/
theorem Rule.resolvesTo_of_clean {rule : Rule Name} {answer : Option (Rule Nat)}
    (done : rule.resolve registry most = .ok ([], answer)) :
    ∃ resolved, answer = some resolved ∧ rule.ResolvesTo registry most resolved := by
  simp only [Rule.resolve] at done
  split at done
  · exact absurd (Prod.mk.inj (Except.ok.inj done)).1 (by simp)
  rcases bind_eq_ok_iff.mp done with ⟨⟨problems, condition⟩, known, done⟩
  rcases Prod.mk.inj (Except.ok.inj done) with ⟨clean, rfl⟩
  simp only [List.append_eq_nil_iff] at clean
  rcases clean with ⟨⟨fromFine, toFine⟩, rfl⟩
  rcases indexOf?_of_roleProblems fromFine with ⟨source, sourceKnown⟩
  rcases indexOf?_of_roleProblems toFine with ⟨target, targetKnown⟩
  obtain ⟨resolved, rfl⟩ := Option.isSome_iff_exists.mp
    (Condition.resolveBy_isSome isSome_of_leaf known)
  refine ⟨⟨source, target, resolved⟩, ?_, sourceKnown, targetKnown, [], known⟩
  simp only [sourceKnown, targetKnown]
  rfl

/-- What it takes to resolve a rule without problems. -/
theorem Rule.resolve_clean_iff {rule : Rule Name} {resolved : Rule Nat} :
    rule.resolve registry most = .ok ([], some resolved) ↔
      rule.condition.depth ≤ maxDepth ∧
        registry.indexOf? rule.source.text = some resolved.source ∧
        registry.indexOf? rule.target.text = some resolved.target ∧
        rule.condition.resolveBy (CountTest.leaf registry most) false =
          .ok ([], some resolved.condition) := by
  constructor
  · intro done
    rcases Rule.resolvesTo_of_clean done with ⟨own, same, resolves⟩
    obtain rfl := Option.some.inj same
    simp only [Rule.resolve] at done
    split at done
    · exact absurd (Prod.mk.inj (Except.ok.inj done)).2 nofun
    · rename_i shallow
      rcases bind_eq_ok_iff.mp done with ⟨⟨problems, condition⟩, known, done⟩
      rcases Prod.mk.inj (Except.ok.inj done) with ⟨clean, given⟩
      rcases List.append_eq_nil_iff.mp clean with ⟨_, rfl⟩
      rcases Option.bind_eq_some_iff.mp given with ⟨source, _, given⟩
      rcases Option.bind_eq_some_iff.mp given with ⟨target, _, given⟩
      rcases Option.bind_eq_some_iff.mp given with ⟨_, rfl, given⟩
      obtain rfl := Option.some.inj given
      exact ⟨Nat.le_of_not_lt shallow, resolves.source, resolves.target, known⟩
  · rintro ⟨shallow, source, target, known⟩
    have fine : ∀ (role : Role) (state : Name) (i : Nat), registry.indexOf? state.text = some i →
        roleProblems registry role state = [] := by
      intro role state i isIndex
      rw [roleProblems, if_pos (Registry.declares_iff.mpr ⟨i, isIndex⟩)]
    have resolve : rule.condition.resolve registry most = .ok ([], some resolved.condition) :=
      known
    rw [Rule.resolve, if_neg (Nat.not_lt.mpr shallow), resolve, fine _ _ _ source,
      fine _ _ _ target, source, target]
    rfl

/-- A test by number is a test by name whose state has this number. -/
theorem CountTest.resolve_eq_some_iff {test : CountTest Name} {resolved : CountTest Nat} :
    test.resolve registry most = some resolved ↔
      isReachable most test.bound = true ∧
        ∃ i, registry.indexOf? test.state.text = some i ∧
          resolved = ⟨test.comparison, i, test.bound⟩ := by
  rw [CountTest.resolve]
  split
  · rename_i reachable
    simp only [reachable, true_and, Option.map_eq_some_iff, @eq_comm _ resolved]
  · rename_i unreachable
    simp only [unreachable, reduceCtorEq, false_and]

theorem CountTest.exists_index_of_leaf {test : CountTest Name} {resolved : CountTest Nat}
    {problems : List Problem} (known : test.leaf registry most = .ok (problems, some resolved)) :
    ∃ i, registry.indexOf? test.state.text = some i ∧
      resolved = ⟨test.comparison, i, test.bound⟩ :=
  (CountTest.resolve_eq_some_iff.mp (Prod.mk.inj (Except.ok.inj known)).2).2

/-- What it takes to resolve a test without problems. -/
theorem CountTest.leaf_clean_iff {test : CountTest Name} {resolved : CountTest Nat} :
    test.leaf registry most = .ok ([], some resolved) ↔
      isReachable most test.bound = true ∧
        ∃ i, registry.indexOf? test.state.text = some i ∧
          resolved = ⟨test.comparison, i, test.bound⟩ := by
  constructor
  · intro done
    exact CountTest.resolve_eq_some_iff.mp (Prod.mk.inj (Except.ok.inj done)).2
  · rintro ⟨reachable, i, isIndex, rfl⟩
    have declared := Registry.declares_iff.mpr ⟨i, isIndex⟩
    have fine : test.problems registry most = [] := by
      cases most <;> simp [CountTest.problems, declared, reachable]
    rw [CountTest.leaf, fine, CountTest.resolve, if_pos reachable, isIndex]
    rfl

/-- Rules are checked one by one. Without problems each of them is resolved. -/
theorem checkRules_clean_iff_forall₂ {rules : List (Rule Name)} {resolved : List (Rule Nat)} :
    (∃ warnings, checkRules registry most rules = .ok ⟨[], resolved, warnings⟩) ↔
      List.Forall₂ (fun rule own => rule.resolve registry most = .ok ([], some own))
        rules resolved := by
  induction rules generalizing resolved with
  | nil =>
      rw [List.forall₂_nil_left_iff]
      constructor
      · rintro ⟨warnings, done⟩
        exact (CheckedRules.mk.inj (Except.ok.inj done)).2.1.symm
      · rintro rfl
        exact ⟨[], rfl⟩
  | cons rule rules ih =>
      rw [List.forall₂_cons_left_iff]
      constructor
      · rintro ⟨warnings, done⟩
        rw [checkRules] at done
        rcases bind_eq_ok_iff.mp done with ⟨⟨problems, answer⟩, first, done⟩
        rcases bind_eq_ok_iff.mp done with ⟨⟨others, rest, more⟩, checked, done⟩
        rcases CheckedRules.mk.inj (Except.ok.inj done) with ⟨clean, rfl, _⟩
        rcases List.append_eq_nil_iff.mp clean with ⟨rfl, rfl⟩
        rcases Rule.resolvesTo_of_clean first with ⟨own, rfl, _⟩
        exact ⟨own, rest, first, ih.mp ⟨more, checked⟩, rfl⟩
      · rintro ⟨own, rest, first, others, rfl⟩
        rcases ih.mpr others with ⟨warnings, checked⟩
        rw [checkRules, first, checked]
        exact ⟨_, rfl⟩

/-- If no rule has a problem, the rules are resolved one by one. -/
theorem resolvesTo_of_checkRules {rules : List (Rule Name)} {resolved : List (Rule Nat)}
    {warnings : List Warning}
    (done : checkRules registry most rules = .ok ⟨[], resolved, warnings⟩) :
    List.Forall₂ (Rule.ResolvesTo registry most) rules resolved := by
  apply (checkRules_clean_iff_forall₂.mp ⟨warnings, done⟩).imp
  intro rule own first
  rcases Rule.resolvesTo_of_clean first with ⟨_, same, resolves⟩
  exact Option.some.inj same ▸ resolves

/-! ## What resolved rules say -/

namespace Rule.ResolvesTo

variable {rule : Rule Name} {resolved : Rule Nat}

theorem target_lt (resolves : rule.ResolvesTo registry most resolved) :
    resolved.target < registry.states.length :=
  Registry.indexOf?_lt resolves.target

theorem test_lt (resolves : rule.ResolvesTo registry most resolved) {test : CountTest Nat}
    (member : test ∈ resolved.condition.tests) : test.state < registry.states.length := by
  rcases resolves.condition.exists_test member with ⟨named, problems, known⟩
  rcases CountTest.exists_index_of_leaf known with ⟨i, isIndex, rfl⟩
  exact Registry.indexOf?_lt isIndex

/-- The resolved condition is true for counts by number if the condition is true for the
same counts by name. -/
theorem value (resolves : rule.ResolvesTo registry most resolved) {named : String → Int}
    {numbered : Nat → Int}
    (same : ∀ name i, registry.indexOf? name = some i → numbered i = named name) :
    resolved.condition.value (CountTest.value numbered) =
      rule.condition.value fun test =>
        test.comparison.holds (named test.state.text) test.bound := by
  rw [resolves.condition.value, Bool.false_xor]
  intro test problems b known
  rcases CountTest.exists_index_of_leaf known with ⟨i, isIndex, rfl⟩
  rw [CountTest.value, same _ i isIndex]

end Rule.ResolvesTo

end Cellular
