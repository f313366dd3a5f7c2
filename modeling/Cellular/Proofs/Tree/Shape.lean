import Cellular.Proofs.Tree.Vectors
import Cellular.Validation.Basic

/-!
# Environments and neighbourhoods as trees

The tree of an environment gives the sizes of the environment, and the tree of a neighbourhood
its offsets, with the same problems. Neither leads to a fault: the axes that sizes are put
into exist, and the offsets of a rule are only asked for if the rule has no problems.
-/

namespace Cellular

/-- The size of an axis as a tree, which is nothing if it was not declared. -/
def sizeTree (size : Option Nat) : Tree :=
  (size.map numberTree).getD .missing

theorem lt_of_axesNamed {rank : Nat} {axis : Name} {axes : List Nat}
    (named : axesNamed rank axis = some axes) : ∀ index ∈ axes, index < rank := by
  rw [axesNamed] at named
  split at named
  · obtain rfl := Option.some.inj named
    exact fun index => List.mem_range.mp
  · split at named
    · split at named
      · rename_i inside
        obtain rfl := Option.some.inj named
        intro index member
        rwa [List.mem_singleton.mp member]
      · exact absurd named nofun
    · exact absurd named nofun

namespace Tree

theorem axesNamed_word (rank : Nat) (axis : Name) :
    axesNamed rank axis.word = Cellular.axesNamed rank axis := by
  have named : namedAxes rank = rank := by
    rw [namedAxes, if_neg (by omega), Int.toNat_natCast]
  have spelled : axis.word = leaf (.word axis.text) := rfl
  rw [spelled, axesNamed, ← spelled, Name.isWord_word, Cellular.axesNamed, named]
  by_cases every : axis.text = everyAxis
  · simp [every]
  · rw [if_neg (by simpa using every), if_neg every]
    cases axisIndex? axis.text with
    | none => rfl
    | some index => by_cases inside : index < rank <;> simp [Option.filter, inside]

/-! ## Environments -/

theorem foldlM_putSize {size : Int} (positive : 1 ≤ size) {axes : List Nat}
    {sizes : List (Option Nat)} (inside : ∀ axis ∈ axes, axis < sizes.length) :
    axes.foldlM (putSize (whole size)) (sizes.map sizeTree) =
      .ok ((axes.foldl (fun sizes index => sizes.set index (some size.toNat)) sizes).map
        sizeTree) := by
  have same : whole size = sizeTree (some size.toNat) := by
    have natural : size = size.toNat := by omega
    conv_lhs => rw [natural]
    rfl
  induction axes generalizing sizes with
  | nil => rfl
  | cons axis axes ih =>
      rcases List.forall_mem_cons.mp inside with ⟨first, others⟩
      have fits : axis < (sizes.map sizeTree).length := by rwa [List.length_map]
      rw [List.foldlM_cons, putSize, if_pos fits, ok_bind, List.foldl_cons, same, ← List.map_set,
        ← same]
      apply ih
      intro index member
      rw [List.length_set]
      exact others index member

/-- One more size, with a problem if there is no such axis or the size is not positive. -/
theorem addSize_tree {rank : Nat} {sizes : List (Option Nat)} (sized : sizes.length = rank)
    (axis : Name) (size : Int) :
    Finds (addSize (whole rank) (sizes.map sizeTree) (node [axis.word, whole size]))
      (Environment.sizeProblem rank axis size)
      ((if (Environment.sizeProblem rank axis size).isEmpty then
        ((Cellular.axesNamed rank axis).getD []).foldl
          (fun sizes index => sizes.set index (some size.toNat)) sizes
        else sizes).map sizeTree) := by
  have opened : (node [axis.word, whole size]).pair = .ok (axis.word, whole size) := rfl
  apply Finds.after opened
  apply Finds.after (integer_whole rank)
  rw [axesNamed_word, Environment.sizeProblem]
  cases named : Cellular.axesNamed rank axis with
  | none => exact (Finds.problems [.noSuchAxis axis rank]).returning fun _ => sizes.map sizeTree
  | some axes =>
      apply Finds.after (isPositive_whole size)
      have inside : ∀ index ∈ axes, index < sizes.length := by
        rw [sized]
        exact lt_of_axesNamed named
      by_cases positive : 1 ≤ size
      · have verdict : decide (1 ≤ size) = true := decide_eq_true positive
        have fine : ¬size < 1 := by omega
        rw [verdict]
        simp only [Option.isNone_some, Bool.false_eq_true, if_false, fine, List.isEmpty_nil,
          if_true, Option.getD_some]
        apply (Finds.require true (.sizeNotPositive axis size)).bind
        exact Finds.lifted (foldlM_putSize positive inside)
      · have verdict : decide (1 ≤ size) = false := decide_eq_false positive
        have small : size < 1 := by omega
        rw [verdict]
        simp only [Option.isNone_some, Bool.false_eq_true, if_false, small, if_true,
          List.isEmpty_cons]
        exact (Finds.require false (.sizeNotPositive axis size)).bind (Finds.nothing _)

/-- The sizes after one more declared size, and the problems so far. -/
private def resized (rank : Nat) (told : List (Option Nat) × List Problem) (entry : Name × Int) :
    List (Option Nat) × List Problem :=
  (if (Environment.sizeProblem rank entry.1 entry.2).isEmpty then
    ((Cellular.axesNamed rank entry.1).getD []).foldl
      (fun sizes index => sizes.set index (some entry.2.toNat)) told.1
    else told.1,
  told.2 ++ Environment.sizeProblem rank entry.1 entry.2)

private theorem length_resized {rank : Nat} (told : List (Option Nat) × List Problem)
    (entry : Name × Int) : (resized rank told entry).1.length = told.1.length := by
  rw [resized]
  dsimp only
  split
  · exact length_foldl (fun _ _ => List.length_set) _ _
  · rfl

private theorem foldl_resized (rank : Nat) (entries : List (Name × Int))
    (told : List (Option Nat) × List Problem) :
    entries.foldl (resized rank) told =
      (entries.foldl (fun sizes entry => (resized rank (sizes, []) entry).1) told.1,
        told.2 ++ entries.flatMap fun entry => Environment.sizeProblem rank entry.1 entry.2) := by
  induction entries generalizing told with
  | nil => simp
  | cons entry entries ih =>
      rw [List.foldl_cons, ih, List.foldl_cons, List.flatMap_cons, ← List.append_assoc]
      rfl

/-- The environment of a tree has the problems and the sizes of the environment. -/
theorem checkEnvironment_tree {memory : Nat} {space : Environment} (small : space.rank ≤ 3)
    (room : lengthFault? memory space.rank = none) :
    Finds (checkEnvironment memory (space.tree Name.word)) space.problems
      (whole space.rank, space.resolvedSizes.map sizeTree) := by
  have short : space.rank ≤ greatestAddress := Nat.le_trans small (by decide)
  have each (told : List (Option Nat) × List Problem) (sizes : List Tree)
      (shown : told.1.length = space.rank ∧ sizes = told.1.map sizeTree) (entry : Name × Int)
      (_ : entry ∈ space.sizes) :
      ∃ next found, Finds (addSize (whole space.rank) sizes (node [entry.1.word, whole entry.2]))
          found next ∧
        ((resized space.rank told entry).1.length = space.rank ∧
          next = (resized space.rank told entry).1.map sizeTree) ∧
        (resized space.rank told entry).2 = told.2 ++ found := by
    rcases shown with ⟨sized, rfl⟩
    exact ⟨_, _, addSize_tree sized entry.1 entry.2,
      ⟨(length_resized told entry).trans sized, rfl⟩, rfl⟩
  let start : List (Option Nat) × List Problem := (List.replicate space.rank none, [])
  have unsized : start.1.length = space.rank ∧
      List.replicate space.rank missing = start.1.map sizeTree := by
    simp [start, sizeTree]
  rcases Finds.foldlM each unsized with ⟨sizes, found, counted, ⟨_, rfl⟩, known⟩
  rw [foldl_resized] at counted known
  have problems : space.problems = found := known
  rw [problems]
  apply Finds.after rfl
  apply Finds.after (length_whole short)
  simp only [Int.toNat_natCast, room]
  apply Finds.after rfl
  exact counted.returning _

/-! ## Neighbourhoods -/

theorem checkOffset_tree (rank : Nat) (rule : OffsetRule) :
    Finds (checkOffset (whole rank) (rule.tree Name.word)) (rule.problems rank)
      (rule.problems rank).isEmpty := by
  rcases rule with ⟨axis, direction, magnitude⟩
  have exist := Finds.require (Cellular.axesNamed rank axis).isSome (.noSuchAxis axis rank)
  have reach := Finds.require (decide (1 ≤ magnitude))
    (.magnitudeNotPositive axis direction.symbol magnitude)
  have problems : OffsetRule.problems rank ⟨axis, direction, magnitude⟩ =
      (if (Cellular.axesNamed rank axis).isSome then [] else [.noSuchAxis axis rank]) ++
        if decide (1 ≤ magnitude) then [] else
          [.magnitudeNotPositive axis direction.symbol magnitude] := by
    rw [OffsetRule.problems]
    by_cases positive : 1 ≤ magnitude
    · have fine : ¬magnitude < 1 := by omega
      cases Cellular.axesNamed rank axis <;> simp [positive, fine]
    · have small : magnitude < 1 := by omega
      cases Cellular.axesNamed rank axis <;> simp [positive, small]
  have fine : (OffsetRule.problems rank ⟨axis, direction, magnitude⟩).isEmpty =
      ((Cellular.axesNamed rank axis).isSome && decide (1 ≤ magnitude)) := by
    rw [problems]
    cases (Cellular.axesNamed rank axis).isSome <;> cases decide (1 ≤ magnitude) <;> rfl
  rw [fine, problems]
  apply Finds.after rfl
  apply Finds.after (integer_whole rank)
  rw [axesNamed_word]
  apply exist.bind
  apply Finds.after (isPositive_whole magnitude)
  exact reach.returning _

/-- The neighbourhood of a tree has the problems and the offsets of the neighbourhood. -/
theorem checkNeighborhood_tree {memory rank : Nat} (small : rank ≤ 3) {key : Name}
    {shape : Neighborhood} {problems : List Problem} {offsets : Option (List Vec)}
    (done : Cellular.checkNeighborhood rank key shape = .ok (problems, offsets))
    (room : shape.problems rank = [] → shape.lengthFault? memory rank = none) :
    Finds (checkNeighborhood memory (whole rank) key.word (shape.tree Name.word)) problems
      (offsets.map (List.map ofVec)) := by
  -- what is done if no rule has a problem, whatever the shape
  have described (fine : shape.problems rank = []) :
      Finds (do
        let found ← Tree.offsets memory (shape.tree Name.word) (whole rank)
        let _ ← require (!found.isEmpty) (.emptyNeighborhood key.word.name)
        return some found) problems (offsets.map (List.map ofVec)) := by
    rw [Cellular.checkNeighborhood, fine] at done
    rcases bind_eq_ok_iff.mp done with ⟨listed, listing, done⟩
    rcases Prod.mk.inj (pure_eq_ok_iff.mp done) with ⟨rfl, rfl⟩
    apply Finds.after (offsets_tree small listing (room fine))
    have nonempty := Finds.require (!listed.isEmpty) (.emptyNeighborhood key)
    cases listed with
    | nil => exact nonempty.returning fun _ => some []
    | cons v listed => exact nonempty.returning fun _ => some ((v :: listed).map ofVec)
  cases shape with
  | moore => exact Finds.after rfl (described rfl)
  | vonNeumann => exact Finds.after rfl (described rfl)
  | custom rules =>
      have each := Finds.mapM fun rule (_ : rule ∈ rules) => checkOffset_tree rank rule
      have custom : (Neighborhood.tree Name.word (.custom rules)).tag = .ok (word "CUSTOM") := rfl
      apply Finds.after custom
      simp only [isWord_word, beq_self_eq_true, if_true]
      apply Finds.after rfl
      by_cases fine : Neighborhood.problems rank (.custom rules) = []
      · have all : (rules.map fun rule => (rule.problems rank).isEmpty).all id = true := by
          simpa [Neighborhood.problems] using fine
        have clean : rules.flatMap (OffsetRule.problems rank) = [] := fine
        rw [clean] at each
        apply each.bind
        rw [if_pos all]
        exact described fine
      · have broken : (rules.map fun rule => (rule.problems rank).isEmpty).all id = false := by
          simpa [Neighborhood.problems] using fine
        have rejected : Cellular.checkNeighborhood rank key (.custom rules) =
            .ok (Neighborhood.problems rank (.custom rules), none) := by
          rw [Cellular.checkNeighborhood, if_neg (by simpa using fine)]
          rfl
        rcases Prod.mk.inj (Except.ok.inj (rejected.symm.trans done)) with ⟨rfl, rfl⟩
        rw [← List.append_nil (Neighborhood.problems rank _)]
        apply each.bind
        rw [if_neg (by rw [broken]; exact Bool.false_ne_true)]
        exact Finds.nothing none

end Tree

end Cellular
