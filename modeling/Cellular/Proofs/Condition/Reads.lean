import Cellular.Proofs.Condition.Cellwise
import Cellular.Proofs.Space.Sorted

/-!
# What a condition reads

The counts around a cell may be known for some states only. A condition reads them from left
to right and goes no further than it must. So it reads some of the counts that its tests ask
for, in their order, and each of them is there, unless it is the last: if that one is missing,
it is the fault of the condition, and there is no other.

If there is a value, counts that were not read have no part in it. However many of them become
known, the condition reads the same counts and has the same value; and once all are known this
is its truth value, for which every operand is asked.
-/

namespace Cellular

/-! ## Partial counts -/

/-- What is known of the counts is known of more counts. -/
def Extends {σ : Type} (more counts : σ → Option Int) : Prop :=
  ∀ state count, counts state = some count → more state = some count

/-! ## Where a verdict ends -/

namespace Verdict

variable {σ τ : Type}

/-- A verdict on partial counts read counts that are there. It has a value, or it goes on to
one more count that is missing. -/
inductive Ends (counts : σ → Option Int) : Verdict σ → Prop
  | settled {reads : List σ} {value : Bool} (there : ∀ state ∈ reads, (counts state).isSome) :
      Ends counts ⟨reads, .ok value⟩
  | stuck {reads : List σ} {state : σ} (there : ∀ earlier ∈ reads, (counts earlier).isSome)
      (missing : counts state = none) :
      Ends counts ⟨reads ++ [state], .error (.missingCount state)⟩

namespace Ends

variable {counts : σ → Option Int} {verdict : Verdict σ}

theorem pure (value : Bool) : Ends counts (.pure value) :=
  .settled fun _ member => absurd member List.not_mem_nil

theorem andThen (ends : verdict.Ends counts) {next : Bool → Verdict σ}
    (each : ∀ value, (next value).Ends counts) : (verdict.andThen next).Ends counts := by
  cases ends with
  | stuck there missing => exact .stuck there missing
  | @settled reads value there =>
      rw [Verdict.andThen_eq rfl]
      generalize next value = last, each value = ends
      cases ends with
      | settled further => exact .settled (List.forall_mem_append.mpr ⟨there, further⟩)
      | stuck further missing =>
          rw [← List.append_assoc]
          exact .stuck (List.forall_mem_append.mpr ⟨there, further⟩) missing

/-- All counts are there but perhaps the last. -/
theorem there_of_before (ends : verdict.Ends counts) {before : List σ} {last : σ}
    (reads : verdict.reads = before ++ [last]) :
    ∀ earlier ∈ before, (counts earlier).isSome := by
  cases ends with
  | settled there =>
      obtain rfl : _ = before ++ [last] := reads
      exact (List.forall_mem_append.mp there).1
  | stuck there _ =>
      rcases List.append_inj' reads rfl with ⟨rfl, _⟩
      exact there

/-- The fault is that the last count is missing. -/
theorem result_eq_missingCount_iff (ends : verdict.Ends counts) {state : σ} :
    verdict.result = .error (.missingCount state) ↔
      verdict.reads.getLast? = some state ∧ counts state = none := by
  cases ends with
  | settled there =>
      constructor
      · exact fun failed => absurd failed nofun
      · rintro ⟨last, missing⟩
        have known := there state (List.mem_of_getLast? last)
        rw [missing] at known
        exact absurd known nofun
  | stuck _ missing =>
      rw [List.getLast?_concat]
      constructor
      · intro failed
        cases failed
        exact ⟨rfl, missing⟩
      · rintro ⟨last, _⟩
        rw [Option.some.inj last]

/-- There is no other fault. -/
theorem exists_of_error (ends : verdict.Ends counts) {fault : EvaluationFault σ}
    (failed : verdict.result = .error fault) : ∃ state, fault = .missingCount state := by
  cases ends with
  | settled _ => exact absurd failed nofun
  | @stuck _ state _ _ => exact ⟨state, (Except.error.inj failed).symm⟩

end Ends

/-- A verdict that has a value is also the second verdict. -/
def Stays (first second : Verdict σ) : Prop :=
  ∀ value, first.result = .ok value → second = first

theorem Stays.andThen {first second : Verdict σ} (stays : first.Stays second)
    {next next' : Bool → Verdict σ} (each : ∀ value, (next value).Stays (next' value)) :
    (first.andThen next).Stays (second.andThen next') := by
  intro value done
  cases known : first.result with
  | error fault =>
      rw [Verdict.andThen, known] at done
      cases known.symm.trans done
  | ok own =>
      rw [andThen_result known] at done
      rw [stays own known, andThen_eq known, andThen_eq known, each own value done]

end Verdict

/-! ## The same under other names -/

/-- The fault with other names for the states. -/
def EvaluationFault.map {σ τ : Type} (f : σ → τ) : EvaluationFault σ → EvaluationFault τ
  | missingCount state => .missingCount (f state)
  | shapeMismatch => .shapeMismatch
  | negativeExtent => .negativeExtent
  | noRoom fault => .noRoom fault
  | malformed fault => .malformed fault

/-- The verdict with other names for the states. -/
def Verdict.map {σ τ : Type} (f : σ → τ) (verdict : Verdict σ) : Verdict τ :=
  ⟨verdict.reads.map f, verdict.result.mapError (EvaluationFault.map f)⟩

theorem Verdict.map_andThen {σ τ : Type} (f : σ → τ) (verdict : Verdict σ)
    (next : Bool → Verdict σ) :
    (verdict.andThen next).map f = (verdict.map f).andThen fun value => (next value).map f := by
  rcases verdict with ⟨reads, value | fault⟩
  · rfl
  · simp only [andThen, map, Except.mapError, List.map_append]

namespace Condition

variable {α σ : Type}

/-! ## Reading in order -/

section Order

variable {leaf : α → Verdict σ} {state : α → σ}

private theorem reads_andThen_sublist {first : Verdict σ} {next : Bool → Verdict σ}
    {own others : List σ} (head : first.reads.Sublist own)
    (rest : ∀ value, (next value).reads.Sublist others) :
    (first.andThen next).reads.Sublist (own ++ others) := by
  rw [Verdict.andThen]
  split
  · exact head.append (rest _)
  · exact head.trans (List.sublist_append_left own others)

private theorem verdictAll_reads {cs : List (Condition α)}
    (each : ∀ c ∈ cs, (c.verdictBy leaf).reads.Sublist (c.tests.map state)) :
    (verdictAll leaf cs).reads.Sublist ((testsList cs).map state) := by
  induction cs with
  | nil => exact List.Sublist.refl []
  | cons c cs ih =>
      rcases List.forall_mem_cons.mp each with ⟨first, others⟩
      rw [verdictAll, testsList, List.map_append]
      apply reads_andThen_sublist first
      intro value
      cases value with
      | true => exact ih others
      | false => exact List.nil_sublist _

private theorem verdictAny_reads {cs : List (Condition α)}
    (each : ∀ c ∈ cs, (c.verdictBy leaf).reads.Sublist (c.tests.map state)) :
    (verdictAny leaf cs).reads.Sublist ((testsList cs).map state) := by
  induction cs with
  | nil => exact List.Sublist.refl []
  | cons c cs ih =>
      rcases List.forall_mem_cons.mp each with ⟨first, others⟩
      rw [verdictAny, testsList, List.map_append]
      apply reads_andThen_sublist first
      intro value
      cases value with
      | true => exact List.nil_sublist _
      | false => exact ih others

/-- If a test reads one count at most, a condition reads those of some tests, in their
order. -/
theorem verdictBy_reads (single : ∀ a, (leaf a).reads.Sublist [state a]) (c : Condition α) :
    (c.verdictBy leaf).reads.Sublist (c.tests.map state) := by
  induction c using inductOn with
  | test a => exact single a
  | always => exact List.Sublist.refl []
  | not c ih =>
      rw [verdictBy, tests, ← List.append_nil (c.tests.map state)]
      exact reads_andThen_sublist ih fun _ => List.Sublist.refl []
  | all cs ih => exact verdictAll_reads ih
  | any cs ih => exact verdictAny_reads ih

end Order

end Condition

/-! ## Conditions on partial counts -/

section Partial

variable {σ : Type} {counts : σ → Option Int}

theorem CountTest.reads_verdict (test : CountTest σ) :
    (test.verdict counts).reads = [test.state] := by
  rw [verdict]
  split <;> rfl

theorem CountTest.verdict_ends (test : CountTest σ) : (test.verdict counts).Ends counts := by
  rw [verdict]
  split
  · next missing =>
    exact @Verdict.Ends.stuck σ counts [] _ (fun _ member => absurd member List.not_mem_nil) missing
  · next count found =>
    apply Verdict.Ends.settled
    rw [List.forall_mem_singleton, found, Option.isSome_some]

theorem CountTest.verdict_stays {more : σ → Option Int} (known : Extends more counts)
    (test : CountTest σ) : (test.verdict counts).Stays (test.verdict more) := by
  intro value done
  cases found : counts test.state with
  | none =>
      rw [verdict, found] at done
      cases done
  | some count => rw [verdict, verdict, found, known _ _ found]

namespace Condition

theorem verdict_ends (c : Condition (CountTest σ)) : (c.verdict counts).Ends counts :=
  @verdictBy_related _ σ σ (CountTest.verdict counts) (CountTest.verdict counts)
    (fun verdict _ => verdict.Ends counts) Verdict.Ends.pure
    (fun first each => first.andThen each) c fun test _ => test.verdict_ends

theorem verdict_stays {more : σ → Option Int} (known : Extends more counts)
    (c : Condition (CountTest σ)) : (c.verdict counts).Stays (c.verdict more) :=
  verdictBy_related (fun _ _ _ => rfl) (fun first each => first.andThen each)
    fun test _ => test.verdict_stays known

/-- If all counts are known, a value that was found earlier is the truth value. -/
theorem value_eq_of_verdict {total : σ → Int} (known : Extends (fun s => some (total s)) counts)
    {c : Condition (CountTest σ)} {value : Bool} (done : (c.verdict counts).result = .ok value) :
    c.value (CountTest.value total) = value := by
  have whole := verdict_result total c
  rw [verdict_stays known c value done, done] at whole
  exact (Except.ok.inj whole).symm

end Condition

end Partial

/-! ## Trees of conditions -/

namespace Tree

variable {α : Type} {leaf : α → Tree} {own : Tree → Verdict Tree}

private theorem verdictAll_skeletons {cs : List (Condition α)}
    (each : ∀ c ∈ cs, (ofCondition leaf c).skeleton.verdictBy own = c.verdictBy (own ∘ leaf)) :
    Condition.verdictAll own (skeletons (ofConditions leaf cs)) =
      Condition.verdictAll (own ∘ leaf) cs := by
  induction cs with
  | nil => rfl
  | cons c cs ih =>
      rcases List.forall_mem_cons.mp each with ⟨first, others⟩
      rw [ofConditions, skeletons, Condition.verdictAll, Condition.verdictAll, first, ih others]

private theorem verdictAny_skeletons {cs : List (Condition α)}
    (each : ∀ c ∈ cs, (ofCondition leaf c).skeleton.verdictBy own = c.verdictBy (own ∘ leaf)) :
    Condition.verdictAny own (skeletons (ofConditions leaf cs)) =
      Condition.verdictAny (own ∘ leaf) cs := by
  induction cs with
  | nil => rfl
  | cons c cs ih =>
      rcases List.forall_mem_cons.mp each with ⟨first, others⟩
      rw [ofConditions, skeletons, Condition.verdictAny, Condition.verdictAny, first, ih others]

/-- If the constant is true, the tree of a condition is evaluated like the condition. -/
theorem verdictBy_skeleton (tests : ∀ a, (leaf a).skeleton = .test (leaf a))
    (constant : own (node [word "TRUE"]) = .pure true) (c : Condition α) :
    (ofCondition leaf c).skeleton.verdictBy own = c.verdictBy (own ∘ leaf) := by
  induction c using Condition.inductOn with
  | test a =>
      rw [ofCondition, tests]
      rfl
  | always => exact constant
  | not c ih =>
      rw [Condition.verdictBy, ← ih]
      rfl
  | all cs ih =>
      rw [ofCondition, skeleton_and, Condition.verdictBy, verdictAll_skeletons ih,
        Condition.verdictBy]
  | any cs ih =>
      rw [ofCondition, skeleton_or, Condition.verdictBy, verdictAny_skeletons ih,
        Condition.verdictBy]

end Tree

section Trees

variable {σ : Type} {state : σ → Tree} {counts : σ → Option Int} {given : Tree → Option Tree}

theorem CountTest.testVerdict_eq_map
    (same : ∀ s, given (state s) = (counts s).map Tree.whole) (test : CountTest σ) :
    (test.tree state).testVerdict given = (test.verdict counts).map state := by
  rw [Tree.testVerdict, test_tree, verdict]
  simp only [Comparison.comparison_symbol, same]
  cases counts test.state with
  | none => rfl
  | some count =>
      simp only [Option.map_some, Comparison.compare?_whole, Tree.decided]
      rfl

/-- If the states have the same counts as their trees, the verdict on the tree of a condition
is the verdict on the condition. -/
theorem Condition.verdict_tree_eq_map
    (same : ∀ s, given (state s) = (counts s).map Tree.whole) (c : Condition (CountTest σ)) :
    (c.tree state).verdict given = (c.verdict counts).map state := by
  have compared : (c.tree state).skeleton.verdictBy (Tree.testVerdict given) =
      c.verdictBy (Tree.testVerdict given ∘ CountTest.tree state) :=
    Tree.verdictBy_skeleton (CountTest.skeleton_tree state) rfl c
  apply compared.trans
  apply verdictBy_related (R := fun v w => v = w.map state)
  · exact fun _ => rfl
  · rintro _ w f g rfl later
    rw [Verdict.map_andThen, funext later]
  · exact fun test _ => test.testVerdict_eq_map same

end Trees

/-! ## Partial counts are enough -/

/-- A condition reads counts in the order of its tests. It fails exactly if the last of them
is missing, and no earlier one ever is; and a value that it has is its truth value, however
the counts that were not read turn out. -/
theorem Condition.verdict_of_partial_counts {σ : Type} [DecidableEq σ] (le : σ → σ → Bool)
    (c : Condition (CountTest σ)) (counts : σ → Option Int) :
    ((c.verdict counts).reads.Sublist (c.tests.map CountTest.state) ∧
      ∀ state ∈ (c.verdict counts).reads, state ∈ c.census le) ∧
    -- the last count may be missing, and then it is the fault
    ((∀ before last, (c.verdict counts).reads = before ++ [last] →
        ∀ earlier ∈ before, (counts earlier).isSome) ∧
      (∀ state, (c.verdict counts).result = .error (.missingCount state) ↔
        (c.verdict counts).reads.getLast? = some state ∧ counts state = none) ∧
      ∀ fault, (c.verdict counts).result = .error fault →
        ∃ state, fault = .missingCount state) ∧
    -- what is known later changes nothing
    (∀ value, (c.verdict counts).result = .ok value →
      (∀ more, Extends more counts → c.verdict more = c.verdict counts) ∧
      ∀ total : σ → Int, Extends (fun state => some (total state)) counts →
        c.value (CountTest.value total) = value) ∧
    -- the same for a tree, whatever stands for the states
    ∀ (state : σ → Tree) (given : Tree → Option Tree),
      (∀ s, given (state s) = (counts s).map Tree.whole) →
      (c.tree state).comparedStates = .ok ((c.tests.map CountTest.state).map state) ∧
      (c.tree state).verdict given = (c.verdict counts).map state := by
  have ends : (c.verdict counts).Ends counts := verdict_ends c
  have ordered : (c.verdict counts).reads.Sublist (c.tests.map CountTest.state) := by
    apply verdictBy_reads
    intro test
    rw [test.reads_verdict]
  constructor
  · use ordered
    intro state read
    exact mem_sortedSet.mpr (ordered.subset read)
  constructor
  · exact ⟨fun _ _ => ends.there_of_before, fun _ => ends.result_eq_missingCount_iff,
      fun _ => ends.exists_of_error⟩
  constructor
  · intro value done
    exact ⟨fun more known => verdict_stays known c value done,
      fun total known => value_eq_of_verdict known done⟩
  · intro state given same
    rw [List.map_map]
    exact ⟨comparedStates_tree c, verdict_tree_eq_map same c⟩

/-- Three neighbours are in the first state, and of the other states nothing is known. -/
def firstCount : Nat → Option Int
  | 0 => some 3
  | _ => none

/-- The only count that is known decides a disjunction, and leaves a conjunction open. -/
theorem Condition.verdict_of_partial_counts_pair :
    let tests : List (Condition (CountTest Nat)) := [.test ⟨.above, 0, 2⟩, .test ⟨.equal, 1, 0⟩]
    (verdict firstCount (.any tests)).reads = [0] ∧
      (∀ total : Nat → Int, total 0 = 3 → value (CountTest.value total) (.any tests) = true) ∧
      (verdict firstCount (.all tests)).result = .error (.missingCount 1) := by
  intro tests
  have decided : (verdict firstCount (.any tests)).result = .ok true := rfl
  have last : (verdict firstCount (.all tests)).reads.getLast? = some 1 := rfl
  constructor
  · rfl
  constructor
  · intro total three
    have known : Extends (fun state => some (total state)) firstCount := by
      intro state count found
      cases state with
      | zero => exact (congrArg some three).trans found
      | succ state => exact absurd found nofun
    have settled := (verdict_of_partial_counts Nat.ble (.any tests) firstCount).2.2.1
    exact (settled true decided).2 total known
  · have faults := (verdict_of_partial_counts Nat.ble (.all tests) firstCount).2.1.2.1
    exact (faults 1).mpr ⟨last, rfl⟩

end Cellular
