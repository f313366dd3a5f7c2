import Cellular.Proofs.Condition.Cellwise
import Cellular.Proofs.Condition.Paths
import Cellular.Proofs.Condition.Renamed
import Cellular.Proofs.Engine.Rearranged
import Cellular.Proofs.Program.Loading

/-!
# Folded negations

Depth leaves negations out, and evaluation goes through each of them. So it is resolving that
keeps evaluation shallow: of a chain of negations at most one is left, and then a path passes
at most two nodes for every level that counts. Nothing else is lost. The tests stand where
they stood, by number instead of by name, and decide as they did.
-/

namespace Cellular

namespace Condition

variable {α β π : Type}

/-! ## Height -/

mutual

/-- The number of nodes on the longest path, negations included. -/
def height : Condition α → Nat
  | .test _ | .always => 1
  | .not c => height c + 1
  | .all cs | .any cs => heightList cs + 1

/-- The greatest height in a list of operands. -/
def heightList : List (Condition α) → Nat
  | [] => 0
  | c :: cs => max (height c) (heightList cs)

end

theorem heightList_le_iff {cs : List (Condition α)} {most : Nat} :
    heightList cs ≤ most ↔ ∀ c ∈ cs, c.height ≤ most := by
  induction cs with
  | nil => simp [heightList]
  | cons c cs ih => rw [heightList, Nat.max_le, ih, List.forall_mem_cons]

/-! ## Folded conditions -/

/-- Whether a condition is a negation. -/
def isNegation : Condition α → Bool
  | .not _ => true
  | .test _ | .always | .all _ | .any _ => false

mutual

/-- No negation stands directly below another one. -/
def Folded : Condition α → Prop
  | .test _ | .always => True
  | .not c => c.isNegation = false ∧ Folded c
  | .all cs | .any cs => FoldedAll cs

/-- The same for every operand of a list. -/
def FoldedAll : List (Condition α) → Prop
  | [] => True
  | c :: cs => Folded c ∧ FoldedAll cs

end

theorem foldedAll_iff {cs : List (Condition α)} : FoldedAll cs ↔ ∀ c ∈ cs, c.Folded := by
  induction cs with
  | nil => simp [FoldedAll]
  | cons c cs ih => rw [FoldedAll, ih, List.forall_mem_cons]

private theorem heightList_le_depthList {cs : List (Condition α)}
    (each : ∀ c ∈ cs, c.height ≤ 2 * c.depth) : heightList cs ≤ 2 * depthList cs := by
  apply heightList_le_iff.mpr
  intro c member
  exact (each c member).trans (Nat.mul_le_mul_left 2 (depth_le_depthList member))

/-- In a folded condition a path passes at most two nodes for every level, and fewer than
that if it does not start with a negation. -/
theorem Folded.height_le_and_lt {c : Condition α} (folded : c.Folded) :
    c.height ≤ 2 * c.depth ∧ (c.isNegation = false → c.height < 2 * c.depth) := by
  induction c using inductOn with
  | test a | always =>
      simp only [height, depth]
      omega
  | not c ih =>
      rcases folded with ⟨single, below⟩
      constructor
      · exact (ih below).2 single
      · intro other
        cases other
  | all cs ih | any cs ih =>
      have operands : heightList cs ≤ 2 * depthList cs :=
        heightList_le_depthList fun c member => (ih c member (foldedAll_iff.mp folded c member)).1
      simp only [height, depth]
      omega

theorem Folded.height_le {c : Condition α} (folded : c.Folded) : c.height ≤ 2 * c.depth :=
  folded.height_le_and_lt.1

/-! ## Resolving -/

section Resolving

variable {leaf : α → Except TreeFault (List π × Option β)}

private theorem folded_negateIf (negate : Bool) {c : Condition β} (single : c.isNegation = false)
    (folded : c.Folded) : (negateIf negate c).Folded := by
  cases negate with
  | false => exact folded
  | true => exact ⟨single, folded⟩

private theorem foldedAll_of_forall₂ {cs : List (Condition α)} {operands : List (Condition β)}
    (parts : List.Forall₂ (fun _ operand => operand.Folded) cs operands) :
    FoldedAll operands := by
  apply foldedAll_iff.mpr
  intro operand member
  rcases exists_of_mem_right parts member with ⟨_, _, folded⟩
  exact folded

/-- A resolved condition is folded. -/
theorem ResolvesTo.folded {negate : Bool} {c : Condition α} {resolved : Condition β}
    (done : ResolvesTo leaf negate c resolved) : resolved.Folded := by
  apply done.inductOn (motive := fun _ _ resolved => resolved.Folded)
  · intro negate a problems b known
    exact folded_negateIf negate rfl trivial
  · intro negate c resolved folded
    exact folded
  · intro negate cs operands parts
    exact folded_negateIf negate rfl (foldedAll_of_forall₂ parts)
  · intro negate cs operands parts
    exact folded_negateIf negate rfl (foldedAll_of_forall₂ parts)

private theorem depth_negateIf (negate : Bool) (c : Condition β) :
    (negateIf negate c).depth = c.depth := by
  cases negate <;> rfl

/-- A resolved condition is as deep as the condition. -/
theorem ResolvesTo.depth_eq {negate : Bool} {c : Condition α} {resolved : Condition β}
    (done : ResolvesTo leaf negate c resolved) : resolved.depth = c.depth := by
  apply done.inductOn (motive := fun _ c resolved => resolved.depth = c.depth)
  · intro negate a problems b known
    rw [depth_negateIf, depth, depth]
  · intro negate c resolved same
    rw [same, depth]
  · intro negate cs operands parts
    rw [depth_negateIf, depth, depth, depthList_congr parts.flip]
  · intro negate cs operands parts
    rw [depth_negateIf, depth, depth, depthList_congr parts.flip]

end Resolving

end Condition

/-! ## Conditions of a program -/

/-- A condition by number says test by test what a condition by name says. Its nodes are those
of the condition, but for the chains of negations. -/
structure Condition.FoldsTo (registry : Registry) (c : Condition (CountTest Name))
    (resolved : Condition (CountTest Nat)) : Prop where
  decides : ∀ (named : String → Int) (numbered : Nat → Option Int),
    (∀ name i, registry.indexOf? name = some i → numbered i = some (named name)) →
      (resolved.verdict numbered).result =
        .ok (c.value (CountTest.value fun state => named state.text))
  tests : List.Forall₂ (fun test own =>
    registry.indexOf? test.state.text = some own.state ∧ own.comparison = test.comparison ∧
      own.bound = test.bound) c.tests resolved.tests
  folded : resolved.Folded
  depth_eq : resolved.depth = c.depth
  height_le : resolved.height ≤ 2 * c.depth

section Program

variable {registry : Registry} {most : Option Nat}

theorem Condition.ResolvesTo.foldsTo {c : Condition (CountTest Name)}
    {resolved : Condition (CountTest Nat)}
    (done : c.ResolvesTo (CountTest.leaf registry most) false resolved) :
    c.FoldsTo registry resolved where
  decides := by
    intro named numbered same
    have counted : ∀ own ∈ resolved.tests, (own.verdict numbered).result =
        .ok (own.value fun i => (numbered i).getD 0) := by
      intro own occurs
      rcases done.exists_test occurs with ⟨test, problems, known⟩
      rcases CountTest.exists_index_of_leaf known with ⟨i, isIndex, rfl⟩
      rw [CountTest.verdict, same _ i isIndex, CountTest.value, same _ i isIndex, Option.getD_some]
    have result := Condition.verdictBy_result_of_tests counted
    rw [Condition.verdict, result, done.value, Bool.false_xor]
    intro test problems own known
    rcases CountTest.exists_index_of_leaf known with ⟨i, isIndex, rfl⟩
    rw [CountTest.value, CountTest.value, same _ i isIndex, Option.getD_some]
  tests := by
    apply done.forall₂_tests.imp
    rintro test own ⟨problems, known⟩
    rcases CountTest.exists_index_of_leaf known with ⟨i, isIndex, rfl⟩
    exact ⟨isIndex, rfl, rfl⟩
  folded := done.folded
  depth_eq := done.depth_eq
  height_le := done.depth_eq ▸ done.folded.height_le

/-- The conditions of an accepted program are resolved from conditions that are not too deep. -/
theorem Parts.Accepted.rules_shallow {parts : Parts} {validated : Validated}
    (accepted : parts.Accepted validated) : ∀ own ∈ validated.rules, ∃ rule ∈ parts.rules,
      rule.condition.depth ≤ maxDepth ∧
        rule.condition.FoldsTo validated.registry own.condition := by
  intro own member
  have clean := checkRules_clean_iff_forall₂.mp ⟨validated.warnings, accepted.rules⟩
  rcases exists_of_mem_right clean member with ⟨rule, given, done⟩
  rcases Rule.resolve_clean_iff.mp done with ⟨shallow, _, _, known⟩
  exact ⟨rule, given, shallow, Condition.ResolvesTo.foldsTo ⟨[], known⟩⟩

end Program

/-- A condition that is resolved without a problem means what it meant, with its tests in their
places, and its height is bounded by its depth alone. So in an accepted program a path of a
condition has at most 128 nodes, whatever chains of negations the program was written with. -/
theorem Condition.foldsTo_of_resolve :
    (∀ (registry : Registry) (most : Option Nat) (c : Condition (CountTest Name)) resolved,
      c.resolve registry most = .ok ([], some resolved) → c.FoldsTo registry resolved) ∧
    ∀ declarations validated, validate declarations = .ok validated →
      ∀ clauses ∈ validated.compile.clauses, ∀ clause ∈ clauses, clause.condition.height ≤ 128 := by
  constructor
  · intro registry most c resolved done
    have resolves : c.ResolvesTo (CountTest.leaf registry most) false resolved := ⟨[], done⟩
    exact resolves.foldsTo
  · intro declarations validated done clauses row clause member
    rcases accepted_of_validate done with ⟨parts, _, accepted⟩
    rcases Validated.clause_cases row member with ⟨always, _⟩ | ⟨own, inRules, rfl⟩
    · rw [always, height]
      decide
    · rcases accepted.rules_shallow own inRules with ⟨rule, _, shallow, folds⟩
      calc
        own.condition.height ≤ 2 * rule.condition.depth := folds.height_le
        _ ≤ 2 * maxDepth := Nat.mul_le_mul_left 2 shallow
        _ = 128 := rfl

/-- The registry of a single state. -/
def singleRegistry : Registry :=
  Registry.empty.add "A" false (Table.ofList [])

/-- Of three negations one is left. -/
theorem Condition.foldsTo_of_resolve_chain :
    let test : CountTest Name := ⟨.atLeast, ⟨"A", none⟩, 1⟩
    let c : Condition (CountTest Name) := .any [.not (.not (.not (.test test))), .test test]
    let own : CountTest Nat := ⟨.atLeast, 0, 1⟩
    let resolved : Condition (CountTest Nat) := .any [.not (.test own), .test own]
    c.resolve singleRegistry (some 2) = .ok ([], some resolved) ∧
      c.FoldsTo singleRegistry resolved ∧
      ∃ validated, validate ringDeclarations = .ok validated ∧
        ∀ clauses ∈ validated.compile.clauses, ∀ clause ∈ clauses,
          clause.condition.height ≤ 128 := by
  intro test c own resolved
  have done : c.resolve singleRegistry (some 2) = .ok ([], some resolved) := by decide
  rcases validate_ring with ⟨validated, _, accepted, _⟩
  exact ⟨done, foldsTo_of_resolve.1 _ _ c resolved done, validated, accepted,
    foldsTo_of_resolve.2 _ validated accepted⟩

end Cellular
