import Cellular.Proofs.Validation.Acceptance
import Cellular.Proofs.Validation.Folded

/-!
# Every fault of a rule is reported

A rule can have several faults at once: each of its two states may be undeclared, its
condition may be nested too deep, and if it is not, each of its tests may name an undeclared
state or a bound that no count can reach. What hides a fault is the depth of a condition, and
nothing else. All other faults are reported in the order in which the program was written,
each at the name that it is about, and exactly the rules without faults are resolved.
-/

namespace Cellular

/-! ## The faults of a rule -/

/-- A fault with the name at which it is reported, unless all is well. -/
def faultUnless (fine : Prop) [Decidable fine] (name : Name) (problem : Problem) :
    List (Name × Problem) :=
  if fine then [] else [(name, problem)]

/-- The faults of a test among states of the given names: its state first, then its bound. -/
def CountTest.faults (names : List String) (most : Option Nat) (test : CountTest Name) :
    List (Name × Problem) :=
  faultUnless (test.state.text ∈ names) test.state (.undeclaredInCondition test.state) ++
    match most with
    | some limit =>
      faultUnless (0 ≤ test.bound ∧ test.bound ≤ limit) test.state
        (.outOfRange test.state test.comparison.symbol test.bound limit)
    | none => []

/-- The faults of a rule: its states first, then its condition. -/
def Rule.faults (names : List String) (most : Option Nat) (rule : Rule Name) :
    List (Name × Problem) :=
  faultUnless (rule.source.text ∈ names) rule.source (.undeclaredInRule .source rule.source) ++
    faultUnless (rule.target.text ∈ names) rule.target (.undeclaredInRule .target rule.target) ++
    if maxDepth < rule.condition.depth then
      [(rule.source, .nestedTooDeep rule.source rule.target)]
    else rule.condition.tests.flatMap (CountTest.faults names most)

/-- Nothing is wrong with a rule. -/
def Rule.faultless (names : List String) (most : Option Nat) (rule : Rule Name) : Bool :=
  (rule.faults names most).isEmpty

theorem Rule.faultless_iff {names : List String} {most : Option Nat} {rule : Rule Name} :
    rule.faultless names most = true ↔ (rule.faults names most).map Prod.snd = [] := by
  rw [faultless, List.isEmpty_iff, List.map_eq_nil_iff]

/-! ## Where they are reported -/

theorem eq_of_mem_faultUnless {fine : Prop} [Decidable fine] {name : Name} {problem : Problem}
    {fault : Name × Problem} (found : fault ∈ faultUnless fine name problem) :
    fault = (name, problem) := by
  rw [faultUnless] at found
  split at found
  · exact absurd found List.not_mem_nil
  · exact List.mem_singleton.mp found

/-- A fault of a test is reported at its state. -/
theorem CountTest.name?_of_mem_faults {names : List String} {most : Option Nat}
    {test : CountTest Name} {fault : Name × Problem} (found : fault ∈ test.faults names most) :
    fault.1 = test.state ∧ fault.2.name? = some test.state := by
  rcases List.mem_append.mp found with found | found
  · obtain rfl := eq_of_mem_faultUnless found
    exact ⟨rfl, rfl⟩
  · cases most with
    | none => exact absurd found List.not_mem_nil
    | some limit =>
        obtain rfl := eq_of_mem_faultUnless found
        exact ⟨rfl, rfl⟩

/-- A fault of a rule is reported at the name that it is listed with. -/
theorem Rule.name?_of_mem_faults {names : List String} {most : Option Nat} {rule : Rule Name}
    {fault : Name × Problem} (found : fault ∈ rule.faults names most) :
    fault.2.name? = some fault.1 := by
  rcases List.mem_append.mp found with found | found
  · rcases List.mem_append.mp found with found | found <;>
      obtain rfl := eq_of_mem_faultUnless found <;> rfl
  · split at found
    · obtain rfl := List.mem_singleton.mp found
      rfl
    · rcases List.mem_flatMap.mp found with ⟨test, _, found⟩
      rcases CountTest.name?_of_mem_faults found with ⟨here, named⟩
      rw [here, named]

/-! ## What the checks find -/

variable {registry : Registry} {most : Option Nat}

private theorem undeclared_eq_faults (registry : Registry) (state : Name) (problem : Problem) :
    (if registry.declares state.text then [] else [problem]) =
      (faultUnless (state.text ∈ registry.names) state problem).map Prod.snd := by
  simp only [faultUnless, Registry.declares_iff_mem]
  split <;> rfl

theorem CountTest.problems_eq_faults (registry : Registry) (most : Option Nat)
    (test : CountTest Name) :
    test.problems registry most = (test.faults registry.names most).map Prod.snd := by
  cases most with
  | none =>
      rw [CountTest.problems, faults, undeclared_eq_faults, List.append_nil, List.append_nil]
  | some limit =>
      rw [CountTest.problems, faults, undeclared_eq_faults, List.map_append]
      simp only [isReachable, Bool.and_eq_true, decide_eq_true_eq, faultUnless]
      congr 1
      split <;> rfl

private theorem resolveList_clean_of_some {α β π : Type}
    {leaf : α → Except TreeFault (List π × Option β)} {cs : List (Condition α)}
    (each : ∀ c ∈ cs, ∀ negate problems resolved,
      Condition.resolveBy leaf negate c = .ok (problems, some resolved) → problems = [])
    {problems : List π} {operands : List (Condition β)}
    (done : Condition.resolveList leaf cs = .ok (problems, some operands)) : problems = [] := by
  induction cs generalizing problems operands with
  | nil => exact (Prod.mk.inj (Except.ok.inj done)).1.symm
  | cons c cs ih =>
      rcases List.forall_mem_cons.mp each with ⟨head, others⟩
      rw [Condition.resolveList] at done
      rcases bind_eq_ok_iff.mp done with ⟨⟨first, operand⟩, known, done⟩
      rcases bind_eq_ok_iff.mp done with ⟨⟨more, rest⟩, further, done⟩
      rcases Prod.mk.inj (Except.ok.inj done) with ⟨rfl, both⟩
      rcases Option.bind_eq_some_iff.mp both with ⟨own, rfl, both⟩
      rcases Option.map_eq_some_iff.mp both with ⟨owns, rfl, _⟩
      rw [head _ _ _ known, ih others further, List.append_nil]

/-- A condition that is resolved has no problems, if tests that are resolved have none. -/
theorem Condition.resolveBy_clean_of_some {α β π : Type}
    {leaf : α → Except TreeFault (List π × Option β)}
    (tests : ∀ a problems b, leaf a = .ok (problems, some b) → problems = [])
    {c : Condition α} {negate : Bool} {problems : List π} {resolved : Condition β}
    (done : resolveBy leaf negate c = .ok (problems, some resolved)) : problems = [] := by
  induction c using inductOn generalizing negate problems resolved with
  | test a =>
      rw [resolveBy] at done
      rcases bind_eq_ok_iff.mp done with ⟨⟨found, own⟩, known, done⟩
      rcases Prod.mk.inj (Except.ok.inj done) with ⟨rfl, given⟩
      rcases Option.map_eq_some_iff.mp given with ⟨b, rfl, _⟩
      exact tests a found b known
  | always =>
      rw [resolveBy] at done
      cases done
  | not c ih =>
      rw [resolveBy] at done
      exact ih done
  | all cs ih | any cs ih =>
      rw [resolveBy] at done
      rcases bind_eq_ok_iff.mp done with ⟨⟨found, own⟩, known, done⟩
      rcases Prod.mk.inj (Except.ok.inj done) with ⟨rfl, given⟩
      rcases Option.map_eq_some_iff.mp given with ⟨operands, rfl, _⟩
      exact resolveList_clean_of_some
        (fun c member negate problems resolved done => ih c member done) known

theorem CountTest.clean_of_leaf {test : CountTest Name} {problems : List Problem}
    {own : CountTest Nat} (known : test.leaf registry most = .ok (problems, some own)) :
    problems = [] := by
  have resolved := CountTest.resolve_eq_some_iff.mp (Prod.mk.inj (Except.ok.inj known)).2
  have clean := CountTest.leaf_clean_iff.mpr resolved
  exact (Prod.mk.inj (Except.ok.inj (known.symm.trans clean))).1

/-- The check of a rule that was read finds its faults, and resolves it exactly if there are
none. -/
theorem Rule.exists_resolve_faults (registry : Registry) (most : Option Nat) {rule : Rule Name}
    (readable : rule.condition.Readable) :
    ∃ answer, rule.resolve registry most =
        .ok ((rule.faults registry.names most).map Prod.snd, answer) ∧
      ∀ own, answer = some own → rule.faultless registry.names most = true := by
  have tests : ∀ test, ∃ own,
      CountTest.leaf registry most test = .ok (test.problems registry most, own) :=
    fun test => ⟨test.resolve registry most, rfl⟩
  rcases readable.resolveBy_problems tests false with ⟨condition, known⟩
  simp only [funext (CountTest.problems_eq_faults registry most), ← List.map_flatMap] at known
  by_cases deep : maxDepth < rule.condition.depth
  · refine ⟨none, ?_, nofun⟩
    simp only [Rule.resolve, if_pos deep, Rule.faults, List.map_append, roleProblems,
      undeclared_eq_faults]
    rfl
  · have done : rule.resolve registry most = .ok ((rule.faults registry.names most).map Prod.snd,
        do return ⟨← registry.indexOf? rule.source.text, ← registry.indexOf? rule.target.text,
          ← condition⟩) := by
      have found : rule.condition.resolve registry most = _ := known
      simp only [Rule.resolve, if_neg deep, Rule.faults, List.map_append, roleProblems,
        undeclared_eq_faults, found]
      rfl
    refine ⟨_, done, ?_⟩
    intro own given
    rcases Option.bind_eq_some_iff.mp given with ⟨source, sourceKnown, given⟩
    rcases Option.bind_eq_some_iff.mp given with ⟨target, targetKnown, given⟩
    rcases Option.bind_eq_some_iff.mp given with ⟨resolved, rfl, given⟩
    have clean := Condition.resolveBy_clean_of_some
      (fun _ _ _ answered => CountTest.clean_of_leaf answered) known
    rw [clean] at known
    have fine : rule.resolve registry most = .ok ([], some ⟨source, target, resolved⟩) :=
      Rule.resolve_clean_iff.mpr ⟨Nat.le_of_not_lt deep, sourceKnown, targetKnown, known⟩
    rw [Rule.faultless_iff]
    exact (Prod.mk.inj (Except.ok.inj (done.symm.trans fine))).1

/-! ## All rules -/

/-- What the checks find out about rules: all their faults in the order of the rules, each
reported at its name, the rules without faults by number, and a warning for each of these
that never changes a cell. -/
structure CheckedRules.Reports (registry : Registry) (most : Option Nat)
    (rules : List (Rule Name)) (checked : CheckedRules) : Prop where
  problems : checked.problems =
    (rules.flatMap (Rule.faults registry.names most)).map Prod.snd
  places : ∀ fault ∈ rules.flatMap (Rule.faults registry.names most),
    fault.2.name? = some fault.1 ∧ fault.2.place? = fault.1.place
  kept : List.Forall₂
    (fun rule own => rule.ResolvesTo registry most own ∧
      rule.condition.FoldsTo registry own.condition)
    (rules.filter (Rule.faultless registry.names most)) checked.rules
  warnings : checked.warnings =
    ((rules.filter (Rule.faultless registry.names most)).filter fun rule =>
      rule.source.text == rule.target.text).map fun rule => ⟨rule.source, rule.target⟩
  idle : checked.warnings.length =
    (checked.rules.filter fun own => own.source == own.target).length

theorem Rule.place?_of_mem_faults {names : List String} {rules : List (Rule Name)}
    {fault : Name × Problem} (found : fault ∈ rules.flatMap (Rule.faults names most)) :
    fault.2.name? = some fault.1 ∧ fault.2.place? = fault.1.place := by
  rcases List.mem_flatMap.mp found with ⟨rule, _, own⟩
  have named := Rule.name?_of_mem_faults own
  refine ⟨named, ?_⟩
  rw [Problem.place?, named]
  rfl

/-- The two states of a rule have one name exactly if they have one number. -/
theorem Rule.ResolvesTo.idle_iff {rule : Rule Name} {own : Rule Nat}
    (resolves : rule.ResolvesTo registry most own) :
    (rule.source.text == rule.target.text) = true ↔ (own.source == own.target) = true := by
  rw [beq_iff_eq, beq_iff_eq]
  constructor
  · intro same
    have known := resolves.source
    rw [same, resolves.target] at known
    exact (Option.some.inj known).symm
  · intro same
    rw [← Registry.nameOf_of_indexOf? resolves.source,
      ← Registry.nameOf_of_indexOf? resolves.target, same]

/-- The rules without faults are resolved in their order, and the others are left out. -/
private theorem exists_checkRules_faults (registry : Registry) (most : Option Nat)
    {rules : List (Rule Name)} (readable : ∀ rule ∈ rules, rule.condition.Readable) :
    ∃ checked, checkRules registry most rules = .ok checked ∧
      checked.problems = (rules.flatMap (Rule.faults registry.names most)).map Prod.snd ∧
      List.Forall₂ (Rule.ResolvesTo registry most)
        (rules.filter (Rule.faultless registry.names most)) checked.rules ∧
      checked.warnings =
        ((rules.filter (Rule.faultless registry.names most)).filter fun rule =>
          rule.source.text == rule.target.text).map fun rule => ⟨rule.source, rule.target⟩ := by
  induction rules with
  | nil => exact ⟨{}, rfl, rfl, .nil, rfl⟩
  | cons rule rules ih =>
      rcases List.forall_mem_cons.mp readable with ⟨first, others⟩
      rcases ih others with ⟨rest, done, problems, kept, warned⟩
      rcases Rule.exists_resolve_faults registry most first with ⟨answer, known, only⟩
      rw [checkRules, known, done]
      refine ⟨_, rfl, ?_, ?_⟩
      · rw [List.flatMap_cons, List.map_append, problems]
      by_cases fine : rule.faultless registry.names most = true
      · rw [Rule.faultless_iff.mp fine] at known
        rcases Rule.resolvesTo_of_clean known with ⟨own, rfl, resolves⟩
        rw [List.filter_cons_of_pos fine]
        refine ⟨.cons resolves kept, ?_⟩
        rw [warned, List.filter_cons]
        cases rule.source.text == rule.target.text <;> rfl
      · cases answer with
        | some own => exact absurd (only own rfl) fine
        | none =>
            rw [List.filter_cons_of_neg fine]
            exact ⟨kept, warned⟩

theorem exists_reports (registry : Registry) (most : Option Nat) {rules : List (Rule Name)}
    (readable : ∀ rule ∈ rules, rule.condition.Readable) :
    ∃ checked, checkRules registry most rules = .ok checked ∧
      checked.Reports registry most rules := by
  rcases exists_checkRules_faults registry most readable with
    ⟨checked, done, problems, kept, warned⟩
  refine ⟨checked, done, problems, fun _ found => Rule.place?_of_mem_faults found, ?_, warned, ?_⟩
  · apply kept.imp
    intro rule own resolves
    exact ⟨resolves, resolves.condition.foldsTo⟩
  · have idle := List.rel_filter (fun _ _ resolves => Rule.ResolvesTo.idle_iff resolves) kept
    rw [warned, List.length_map, idle.length_eq]

/-- All faults of the rules of a program are among its problems, at the end. -/
theorem rejected_of_faults {program : List Declaration} {key block : Name}
    {rules : List (Rule Name)} {entries : List StateEntry}
    (readable : ∀ declaration ∈ program, declaration.Readable)
    (ruled : (Outline.ofProgram program).1.rules = some (key, rules))
    (stated : (Outline.ofProgram program).1.states = some (block, entries)) :
    ∃ shape offsets, (Outline.ofProgram program).1.checkOffsets = .ok (shape, offsets) ∧
      let faults := rules.flatMap
        (Rule.faults (checkStates entries).registry.names (offsets.map List.length))
      (faults ≠ [] → ∃ before, validate program =
        .error (.rejected (before ++ faults.map Prod.snd))) := by
  rcases Outline.exists_checkOffsets readable with ⟨shape, offsets, shaped⟩
  refine ⟨shape, offsets, shaped, ?_⟩
  intro faults faulty
  have conditions : ∀ rule ∈ rules, rule.condition.Readable := fun rule member =>
    (Outline.readable_rules readable ruled rule member).condition
  rcases exists_reports (checkStates entries).registry (offsets.map List.length) conditions with
    ⟨checked, done, reports⟩
  have known : registered (Outline.ofProgram program).1 =
      some (checkStates entries).registry := by
    rw [registered, stated]
    rfl
  have checks : (Outline.ofProgram program).1.checkRules
      (registered (Outline.ofProgram program).1) (offsets.map List.length) = .ok checked := by
    simp only [known, Outline.checkRules, ruled]
    exact done
  have found : collected program shape checked.problems ≠ [] := by
    intro clean
    have none_found := (List.append_eq_nil_iff.mp clean).2
    rw [reports.problems] at none_found
    exact faulty (List.map_eq_nil_iff.mp none_found)
  refine ⟨collected program shape [], ?_⟩
  rw [validate_of_problems shaped checks found, collected, collected, List.append_nil,
    reports.problems]

/-- However many faults rules have, all of them are reported, one after the other, and exactly
the rules without faults are kept. -/
theorem checkRules_reports :
    (∀ (registry : Registry) (most : Option Nat) (rules : List (Rule Name)),
      (∀ rule ∈ rules, rule.condition.Readable) →
        (∃ checked, checkRules registry most rules = .ok checked ∧
          checked.Reports registry most rules) ∧
        -- the depth of a condition is that of its deepest test
        ∀ rule ∈ rules, (maxDepth < rule.condition.depth ↔
          ∃ nodes, rule.condition.HasPath nodes ∧ 64 ≤ nodes)) ∧
    -- the problems of the rules are the last ones of a program
    ∀ program key block rules entries, (∀ declaration ∈ program, declaration.Readable) →
      (Outline.ofProgram program).1.rules = some (key, rules) →
      (Outline.ofProgram program).1.states = some (block, entries) →
        ∃ shape offsets, (Outline.ofProgram program).1.checkOffsets = .ok (shape, offsets) ∧
          let faults := rules.flatMap
            (Rule.faults (checkStates entries).registry.names (offsets.map List.length))
          (faults ≠ [] → ∃ before, validate program =
            .error (.rejected (before ++ faults.map Prod.snd))) := by
  constructor
  · intro registry most rules readable
    refine ⟨exists_reports registry most readable, ?_⟩
    intro rule member
    have branching := (readable rule member).branching.mono (Nat.le_succ 1)
    have shallow : rule.condition.depth ≤ maxDepth ↔
        ∀ nodes, rule.condition.HasPath nodes → nodes ≤ 63 :=
      Condition.depth_le_iff branching
    rw [← Nat.not_le, shallow]
    push Not
    rfl
  · intro program key block rules entries readable ruled stated
    exact rejected_of_faults readable ruled stated

/-- Two rules over a state A: the first never changes a cell, and the second speaks of three
states that there are not and of two bounds out of range. -/
def faultyRules : List (Rule Name) :=
  [⟨⟨"A", some ⟨3, 6⟩⟩, ⟨"A", some ⟨3, 11⟩⟩,
      .any [.not (.not (.test ⟨.atLeast, ⟨"A", some ⟨3, 21⟩⟩, 1⟩)),
        .test ⟨.atMost, ⟨"A", some ⟨3, 40⟩⟩, 2⟩]⟩,
    ⟨⟨"B", some ⟨4, 6⟩⟩, ⟨"C", some ⟨4, 11⟩⟩,
      .all [.test ⟨.equal, ⟨"D", some ⟨4, 21⟩⟩, 5⟩,
        .not (.test ⟨.equal, ⟨"A", some ⟨4, 40⟩⟩, -1⟩)]⟩]

/-- A program of these rules without a neighbourhood. -/
def faultyDeclarations : List Declaration :=
  [⟨⟨"states", none⟩, .states [⟨⟨"A", none⟩, []⟩]⟩, ⟨⟨"rules", none⟩, .rules faultyRules⟩]

private theorem spelled_letter {c : Char} (letter : isNameStart c = true)
    (place : Option Position) : Name.Spelled ⟨String.ofList [c], place⟩ :=
  ⟨c, [], String.toList_ofList, letter, nofun⟩

private theorem readable_faultyRules : ∀ rule ∈ faultyRules, rule.Readable := by
  have a : ∀ place, Name.Spelled ⟨"A", place⟩ := fun place => spelled_letter rfl place
  have b : Name.Spelled ⟨"B", some ⟨4, 6⟩⟩ := spelled_letter rfl _
  have c : Name.Spelled ⟨"C", some ⟨4, 11⟩⟩ := spelled_letter rfl _
  have d : Name.Spelled ⟨"D", some ⟨4, 21⟩⟩ := spelled_letter rfl _
  rw [faultyRules, List.forall_mem_cons, List.forall_mem_singleton]
  constructor
  · exact ⟨a _, a _, Nat.le_refl 2, a _, a _, trivial⟩
  · exact ⟨b, c, Nat.le_refl 2, d, a _, trivial⟩

private theorem readable_faultyDeclarations :
    ∀ declaration ∈ faultyDeclarations, declaration.Readable := by
  rw [faultyDeclarations, List.forall_mem_cons, List.forall_mem_singleton]
  constructor
  · refine ⟨⟨'s', _, String.toList_ofList, rfl, List.all_eq_true.mp rfl⟩, nofun, ?_, ?_, ?_⟩
    · exact List.forall_mem_singleton.mpr ⟨spelled_letter rfl _, nofun⟩
    · simp [Keyword.text]
    · simp
  · exact ⟨⟨'r', _, String.toList_ofList, rfl, List.all_eq_true.mp rfl⟩, readable_faultyRules⟩

theorem checkRules_reports_faulty :
    (∀ rule ∈ faultyRules, rule.condition.Readable) ∧
      (∃ checked, checkRules singleRegistry (some 2) faultyRules = .ok checked ∧
        checked.Reports singleRegistry (some 2) faultyRules ∧
        checked.problems.map Problem.place? =
          [some ⟨4, 6⟩, some ⟨4, 11⟩, some ⟨4, 21⟩, some ⟨4, 21⟩, some ⟨4, 40⟩] ∧
        checked.rules.length = 1 ∧ checked.warnings.map Warning.place? = [some ⟨3, 6⟩]) ∧
      -- while the number of neighbours is not known, no bound is out of range
      ∃ before, validate faultyDeclarations = .error (.rejected (before ++
        [.undeclaredInRule .source ⟨"B", some ⟨4, 6⟩⟩,
          .undeclaredInRule .target ⟨"C", some ⟨4, 11⟩⟩,
          .undeclaredInCondition ⟨"D", some ⟨4, 21⟩⟩])) := by
  have conditions : ∀ rule ∈ faultyRules, rule.condition.Readable := fun rule member =>
    (readable_faultyRules rule member).condition
  refine ⟨conditions, ?_, ?_⟩
  · rcases (checkRules_reports.1 singleRegistry (some 2) faultyRules conditions).1 with
      ⟨checked, done, reports⟩
    refine ⟨checked, done, reports, ?_⟩
    obtain rfl : _ = checked := Except.ok.inj ((rfl : checkRules _ _ _ = .ok _).symm.trans done)
    decide
  · rcases checkRules_reports.2 faultyDeclarations _ _ faultyRules _ readable_faultyDeclarations
      rfl rfl with ⟨shape, offsets, shaped, rejected⟩
    rcases Prod.mk.inj (Except.ok.inj shaped) with ⟨rfl, rfl⟩
    exact rejected (by decide)

end Cellular
