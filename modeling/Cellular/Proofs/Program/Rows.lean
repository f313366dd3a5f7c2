import Cellular.Program.Description
import Cellular.Proofs.Engine.Rearranged

/-!
# Rules sorted by state

Compiling sorts the rules by the state they start from. The rules of one state keep their
order, no rule is lost, and none comes up twice; so the rules could as well be filed one after
the other, each at the end of the row of its state. The next state of a cell is then the
target of the first rule of the program that applies, whatever other rules stand in between.
-/

namespace Cellular

/-- What a rule says about the state it starts from. -/
def Rule.clause (rule : Rule Nat) : Clause :=
  ⟨rule.condition, rule.target⟩

/-! ## The order of the rows -/

/-- The rules of the first states, one state after the other. -/
def sortedRules (states : Nat) (rules : List (Rule Nat)) : List (Rule Nat) :=
  (List.range states).flatMap fun state => rules.filter fun rule => rule.source == state

theorem sortedRules_succ (states : Nat) (rules : List (Rule Nat)) :
    sortedRules (states + 1) rules =
      sortedRules states rules ++ rules.filter fun rule => rule.source == states := by
  rw [sortedRules, List.range_succ, List.flatMap_append, List.flatMap_singleton]
  rfl

theorem mem_sortedRules {states : Nat} {rules : List (Rule Nat)} {rule : Rule Nat} :
    rule ∈ sortedRules states rules ↔ rule ∈ rules ∧ rule.source < states := by
  simp only [sortedRules, List.mem_flatMap, List.mem_range, List.mem_filter, beq_iff_eq]
  constructor
  · rintro ⟨state, below, member, rfl⟩
    exact ⟨member, below⟩
  · rintro ⟨member, below⟩
    exact ⟨rule.source, below, member, rfl⟩

/-- The rules of one more state come after those of the states before it. -/
private theorem sortedRules_perm_filter (states : Nat) (rules : List (Rule Nat)) :
    (sortedRules states rules).Perm (rules.filter fun rule => rule.source < states) := by
  induction states with
  | zero =>
      have none_left : (rules.filter fun rule => rule.source < 0) = [] :=
        List.filter_eq_nil_iff.mpr fun rule _ => by simp
      rw [none_left]
      exact .refl []
  | succ states ih =>
      have below : (rules.filter fun rule => rule.source < states) =
          (rules.filter fun rule => rule.source < states + 1).filter
            fun rule => rule.source < states := by
        rw [List.filter_filter]
        apply List.filter_congr
        intro rule _
        rw [← Bool.decide_and, decide_eq_decide]
        omega
      have last : (rules.filter fun rule => rule.source == states) =
          (rules.filter fun rule => rule.source < states + 1).filter
            fun rule => !decide (rule.source < states) := by
        rw [List.filter_filter]
        apply List.filter_congr
        intro rule _
        rw [← decide_not, ← Bool.decide_and, beq_eq_decide, decide_eq_decide]
        omega
      rw [sortedRules_succ]
      apply (ih.append_right _).trans
      rw [below, last]
      exact List.filter_append_perm _ _

/-- Sorting loses no rule and doubles none. -/
theorem sortedRules_perm {states : Nat} {rules : List (Rule Nat)}
    (inside : ∀ rule ∈ rules, rule.source < states) : (sortedRules states rules).Perm rules := by
  have all : (rules.filter fun rule => rule.source < states) = rules :=
    List.filter_eq_self.mpr fun rule member => decide_eq_true (inside rule member)
  have perm := sortedRules_perm_filter states rules
  rwa [all] at perm

/-- Sorting keeps the order of the rules of one state. -/
theorem filter_sortedRules {states state : Nat} (declared : state < states)
    (rules : List (Rule Nat)) :
    ((sortedRules states rules).filter fun rule => rule.source == state) =
      rules.filter fun rule => rule.source == state := by
  induction states with
  | zero => exact absurd declared (Nat.not_lt_zero state)
  | succ states ih =>
      rw [sortedRules_succ, List.filter_append]
      rcases Nat.lt_succ_iff_lt_or_eq.mp declared with below | rfl
      · have apart : ((rules.filter fun rule => rule.source == states).filter
            fun rule => rule.source == state) = [] := by
          rw [List.filter_eq_nil_iff]
          intro rule member own
          have other := (List.mem_filter.mp member).2
          rw [beq_iff_eq] at own other
          exact Nat.ne_of_lt below (own.symm.trans other)
        rw [ih below, apart, List.append_nil]
      · have apart : ((sortedRules state rules).filter fun rule => rule.source == state) = [] := by
          rw [List.filter_eq_nil_iff]
          intro rule member own
          rw [beq_iff_eq] at own
          exact Nat.ne_of_lt (mem_sortedRules.mp member).2 own
        rw [apart, List.nil_append, List.filter_filter]
        simp only [Bool.and_self]

/-! ## Rows of clauses -/

/-- Sorted rules have the same rows. -/
theorem clausesOf_sortedRules {states state : Nat} (declared : state < states)
    (rules : List (Rule Nat)) :
    clausesOf (sortedRules states rules) state = clausesOf rules state := by
  rw [clausesOf, filter_sortedRules declared, clausesOf]

theorem zipIdx_map_range {α : Type} (f : Nat → α) (n : Nat) :
    ((List.range n).map f).zipIdx = (List.range n).map fun i => (f i, i) := by
  rw [List.zipIdx_map, List.zipIdx_eq_zip_range', List.length_range, List.range_eq_range',
    List.zip_eq_zipWith, List.zipWith_self, List.map_map]
  rfl

private theorem filter_clausesOf {rules : List (Rule Nat)}
    (apart : ∀ rule ∈ rules, rule.condition ≠ .always) (state : Nat) :
    (((clausesOf rules state).map fun clause => (state, clause)).filter
        fun (_, clause) => clause.condition != .always) =
      (rules.filter fun rule => rule.source == state).map
        fun rule => (rule.source, rule.clause) := by
  rw [clausesOf]
  split
  · next none_own =>
    rw [none_own]
    rfl
  · next some_own =>
    rw [List.map_map, List.filter_eq_self.mpr]
    · apply List.map_congr_left
      intro rule member
      rw [beq_iff_eq.mp (List.mem_filter.mp member).2]
      rfl
    · intro filed member
      rcases List.mem_map.mp member with ⟨rule, own, rfl⟩
      exact bne_iff_ne.mpr (apart rule (List.mem_filter.mp own).1)

/-- If no rule holds always, the clauses that stand for rules are the sorted rules. -/
theorem Validated.ruleClauses_compile {validated : Validated}
    (apart : ∀ rule ∈ validated.rules, rule.condition ≠ .always) :
    validated.compile.ruleClauses =
      (sortedRules validated.registry.states.length validated.rules).map
        fun rule => (rule.source, rule.clause) := by
  have rows : validated.compile.clauses = _ := rfl
  rw [Program.ruleClauses, rows, compile, zipIdx_map_range, List.flatMap_map, List.filter_flatMap,
    sortedRules, List.map_flatMap]
  exact List.flatMap_congr fun state _ => filter_clausesOf apart state

/-! ## Filing the rules one after the other -/

/-- Puts a rule at the end of the row of the state it starts from. -/
def fileRule (rows : List (List Clause)) (rule : Rule Nat) : List (List Clause) :=
  rows.modify rule.source (· ++ [rule.clause])

/-- The row of a state when all rules are filed: a row that stayed empty keeps the state. -/
def closeRow (row : List Clause) (state : Nat) : List Clause :=
  if row.isEmpty then [⟨.always, state⟩] else row

/-- Filing a rule changes the row of one state. -/
theorem fileRule_map_range {states : Nat} (rows : Nat → List Clause) (rule : Rule Nat) :
    fileRule ((List.range states).map rows) rule =
      (List.range states).map fun state =>
        if rule.source == state then rows state ++ [rule.clause] else rows state := by
  apply List.ext_getElem?
  intro i
  rw [fileRule, List.getElem?_modify, List.getElem?_map, List.getElem?_map]
  by_cases declared : i < states
  · rw [List.getElem?_range declared]
    by_cases own : rule.source = i
    · simp [own]
    · simp [own]
  · rw [List.getElem?_eq_none (Nat.le_of_not_lt (List.length_range ▸ declared))]
    rfl

theorem foldl_fileRule {states : Nat} (rules : List (Rule Nat)) (rows : Nat → List Clause) :
    rules.foldl fileRule ((List.range states).map rows) =
      (List.range states).map fun state =>
        rows state ++ (rules.filter fun rule => rule.source == state).map Rule.clause := by
  induction rules generalizing rows with
  | nil => simp
  | cons rule rules ih =>
      rw [List.foldl_cons, fileRule_map_range, ih]
      apply List.map_congr_left
      intro state _
      rw [List.filter_cons]
      cases rule.source == state with
      | true => simp
      | false => rfl

theorem closeRow_eq (rules : List (Rule Nat)) (state : Nat) :
    closeRow ((rules.filter fun rule => rule.source == state).map Rule.clause) state =
      clausesOf rules state := by
  rw [closeRow, clausesOf, List.isEmpty_map]
  cases rules.filter fun rule => rule.source == state with
  | nil => rfl
  | cons rule own => rfl

/-- Filing the rules one after the other gives the rows of the compiled program. -/
theorem Validated.clauses_compile_eq_filed (validated : Validated) :
    validated.compile.clauses =
      (validated.rules.foldl fileRule
        (List.replicate validated.registry.states.length [])).zipIdx.map
          fun (row, state) => closeRow row state := by
  have empty : List.replicate validated.registry.states.length [] =
      (List.range validated.registry.states.length).map fun _ => ([] : List Clause) := by
    rw [List.map_const', List.length_range]
  rw [empty, foldl_fileRule, zipIdx_map_range, List.map_map, compile]
  apply List.map_congr_left
  intro state _
  exact (closeRow_eq validated.rules state).symm

/-! ## The first rule that applies -/

/-- A cell changes by the first rule that applies, or it stays if there is none. -/
theorem Validated.transition_compile {validated : Validated} {state : Nat}
    (declared : state < validated.registry.states.length) (counts : Nat → Int) :
    validated.compile.transition state counts =
      .ok (((validated.rules.find? (Rule.appliesTo counts state)).map Rule.target).getD state :
        Nat) := by
  have row := Validated.getElem?_clauses_compile declared
  rw [Program.transition_eq_of_row row, firstFiring_clausesOf]

/-! ## Accepted programs -/

section Accepted

variable {parts : Parts} {validated : Validated}

theorem Parts.Accepted.source_lt (accepted : parts.Accepted validated) :
    ∀ rule ∈ validated.rules, rule.source < validated.registry.states.length := by
  intro rule member
  rcases exists_of_mem_right accepted.rules_resolve member with ⟨_, _, resolves⟩
  exact Registry.indexOf?_lt resolves.source

/-- No rule holds always: only a state without rules has such a clause. -/
theorem Parts.Accepted.condition_ne_always (accepted : parts.Accepted validated) :
    ∀ rule ∈ validated.rules, rule.condition ≠ .always := by
  intro rule member
  rcases exists_of_mem_right accepted.rules_resolve member with ⟨_, _, resolves⟩
  exact resolves.condition.resolved_ne_always

end Accepted

/-- Compiling sorts the rules of an accepted program into one row for each state. No rule is
lost or doubled, the rules of a state keep their order, and the first of them that applies
gives the next state of a cell. -/
theorem validate_compile_partitions {declarations : List Declaration} {validated : Validated}
    (accepted : validate declarations = .ok validated) :
    validated.compile.clauses.length = validated.registry.states.length ∧
    -- the row of a state holds its rules, in their order
    (∀ state < validated.registry.states.length,
      let own := validated.rules.filter fun rule => rule.source == state
      (own = [] → validated.compile.clauses[state]? = some [⟨.always, state⟩]) ∧
        (own ≠ [] → validated.compile.clauses[state]? = some (own.map Rule.clause))) ∧
    -- all rows together hold every rule once
    (validated.compile.ruleClauses.Perm
        (validated.rules.map fun rule => (rule.source, rule.clause)) ∧
      validated.compile.clauses =
        (validated.rules.foldl fileRule
          (List.replicate validated.registry.states.length [])).zipIdx.map
            fun (row, state) => closeRow row state) ∧
    -- the first rule that applies decides, wherever it stands
    ∀ state < validated.registry.states.length, ∀ counts : Nat → Int,
      (∀ before rule after, validated.rules = before ++ rule :: after → rule.source = state →
        rule.condition.Holds (CountTest.Holds counts) →
        (∀ earlier ∈ before, earlier.source = state →
          ¬earlier.condition.Holds (CountTest.Holds counts)) →
        validated.compile.transition state counts = .ok rule.target) ∧
      ((∀ rule ∈ validated.rules, rule.source = state →
          ¬rule.condition.Holds (CountTest.Holds counts)) →
        validated.compile.transition state counts = .ok state) := by
  rcases accepted_of_validate accepted with ⟨parts, _, passes⟩
  constructor
  · exact passes.closed.covers
  constructor
  · intro state declared own
    rw [Validated.getElem?_clauses_compile declared, ← closeRow_eq]
    constructor
    · intro none_own
      change some (closeRow (own.map Rule.clause) state) = _
      rw [none_own]
      rfl
    · intro some_own
      change some (closeRow (own.map Rule.clause) state) = _
      rw [closeRow, List.isEmpty_map, if_neg (mt List.isEmpty_iff.mp some_own)]
  constructor
  · constructor
    · rw [Validated.ruleClauses_compile passes.condition_ne_always]
      exact (sortedRules_perm passes.source_lt).map _
    · exact validated.clauses_compile_eq_filed
  · intro state declared counts
    have next := Validated.transition_compile declared counts
    constructor
    · intro before rule after split starts holds earlier
      have first : validated.rules.find? (Rule.appliesTo counts state) = some rule := by
        rw [List.find?_eq_some_iff_append]
        use Rule.appliesTo_eq_true_iff.mpr ⟨starts, holds⟩, before, after, split
        intro other member
        rw [Bool.not_eq_true', ← Bool.not_eq_true, Rule.appliesTo_eq_true_iff]
        exact fun applies => earlier other member applies.1 applies.2
      rw [next, first]
      rfl
    · intro idle
      have none_first : validated.rules.find? (Rule.appliesTo counts state) = none := by
        rw [List.find?_eq_none]
        intro rule member applies
        rcases Rule.appliesTo_eq_true_iff.mp applies with ⟨starts, holds⟩
        exact idle rule member starts holds
      rw [next, none_first]
      rfl

/-! ## A program with rules in between -/

/-- Two rules of one state, with a rule of another state between them. -/
def betweenParts : Parts where
  space := ⟨1, []⟩
  shape := .custom [⟨⟨"x", none⟩, .plus, 1⟩]
  edge := .void
  entries := [⟨⟨"A", none⟩, []⟩, ⟨⟨"B", none⟩, []⟩, ⟨⟨"C", none⟩, []⟩]
  rules := [⟨⟨"A", none⟩, ⟨"A", none⟩, .test ⟨.equal, ⟨"B", none⟩, 1⟩⟩,
    ⟨⟨"B", none⟩, ⟨"A", none⟩, .test ⟨.atLeast, ⟨"A", none⟩, 1⟩⟩,
    ⟨⟨"A", none⟩, ⟨"B", none⟩, .test ⟨.equal, ⟨"A", none⟩, 1⟩⟩]

/-- The program with these parts. -/
def betweenDeclarations : List Declaration :=
  [⟨⟨"environment", none⟩, .environment betweenParts.space⟩,
    ⟨⟨"neighborhood", none⟩, .neighborhood betweenParts.shape⟩,
    ⟨⟨"states", none⟩, .states betweenParts.entries⟩,
    ⟨⟨"rules", none⟩, .rules betweenParts.rules⟩]

/-- What validation makes of the program. -/
def betweenValidated : Validated where
  rank := 1
  sizes := [none]
  offsets := [[1]]
  boundary := .void
  registry := (checkStates betweenParts.entries).registry
  rules := [⟨0, 0, .test ⟨.equal, 1, 1⟩⟩, ⟨1, 0, .test ⟨.atLeast, 0, 1⟩⟩,
    ⟨0, 1, .test ⟨.equal, 0, 1⟩⟩]
  warnings := [⟨⟨"A", none⟩, ⟨"A", none⟩⟩]

theorem accepted_between : betweenParts.Accepted betweenValidated where
  rank := rfl
  sizes := rfl
  space := rfl
  shape := rfl
  offsets := offsets_right none _
  nonempty := nofun
  entries := rfl
  registry := rfl
  boundary := fun _ => rfl
  rules := rfl

theorem validate_between : validate betweenDeclarations = .ok betweenValidated := by
  apply validate_eq_ok_iff_accepted.mpr
  constructor
  · constructor
    · intro declaration member
      simp only [betweenDeclarations, List.mem_cons, List.not_mem_nil, or_false] at member
      rcases member with rfl | rfl | rfl | rfl
      · exact ⟨.environment, rfl, trivial⟩
      · exact ⟨.neighborhood, rfl, trivial⟩
      · exact ⟨.states, rfl, trivial⟩
      · exact ⟨.rules, rfl, trivial⟩
    · exact ⟨by decide, by decide⟩
  · exact ⟨betweenParts, rfl, accepted_between⟩

/-- The rules of the first state come together. Where its first rule applies, the other one
does not count, though its condition holds; and a state without rules stays. -/
theorem validate_compile_partitions_between :
    validate betweenDeclarations = .ok betweenValidated ∧
    betweenValidated.compile.clauses[0]? =
      some [⟨.test ⟨.equal, 1, 1⟩, 0⟩, ⟨.test ⟨.equal, 0, 1⟩, 1⟩] ∧
    betweenValidated.compile.clauses[2]? = some [⟨.always, 2⟩] ∧
    betweenValidated.compile.transition 0 (fun _ => 1) = .ok 0 ∧
    betweenValidated.compile.transition 2 (fun _ => 1) = .ok 2 := by
  obtain ⟨_, rows, _, next⟩ := validate_compile_partitions validate_between
  use validate_between, (rows 0 (by decide)).2 nofun, (rows 2 (by decide)).1 rfl
  constructor
  · apply (next 0 (by decide) fun _ => 1).1 [] _ _ rfl rfl rfl
    exact fun _ member => absurd member List.not_mem_nil
  · apply (next 2 (by decide) fun _ => 1).2
    intro rule member
    rcases List.mem_cons.mp member with rfl | member
    · exact nofun
    · rcases List.mem_pair.mp member with rfl | rfl
      · exact nofun
      · exact nofun

end Cellular
