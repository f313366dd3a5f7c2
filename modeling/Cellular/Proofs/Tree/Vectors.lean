import Cellular.Proofs.Space.Offsets
import Cellular.Program.Memory
import Cellular.Proofs.Tree.Findings

/-!
# Vectors as trees

Vectors of whole numbers are compared as trees as they are compared as vectors, so that a
list of them is sorted alike. The offsets that a tree describes are then those that the
neighbourhood describes, as long as its cubes have a place in memory and its axes exist.
-/

namespace Cellular

namespace Tree

/-! ## The order of vectors -/

theorem sameList_ofVec (v w : Vec) : sameList (v.map whole) (w.map whole) = (v == w) := by
  induction v generalizing w with
  | nil => cases w <;> rfl
  | cons a v ih =>
      cases w with
      | nil => rfl
      | cons b w => simp only [List.map_cons, sameList, same_whole, ih, List.cons_beq_cons]

theorem same_ofVec (v w : Vec) : (ofVec v).same (ofVec w) = (v == w) := by
  rw [ofVec, ofVec, same, sameList_ofVec]

/-- A vector is less than another exactly if it is not the other one and does not come after
it. -/
theorem lessList?_ofVec (v w : Vec) :
    lessList? (v.map whole) (w.map whole) = some (!w.le v) := by
  induction v generalizing w with
  | nil => cases w <;> rfl
  | cons a v ih =>
      cases w with
      | nil => rfl
      | cons b w =>
          rw [List.map_cons, List.map_cons, lessList?, same_whole, ih, less?_whole, Vec.le]
          by_cases equal : a = b
          · simp [equal]
          · have apart : (b == a) = false := beq_false_of_ne (Ne.symm equal)
            have order : decide (a < b) = !decide (b < a) := by
              rw [← decide_not, decide_eq_decide]
              omega
            simp [equal, apart, order]

theorem less?_ofVec (v w : Vec) : (ofVec v).less? (ofVec w) = some (!w.le v) := by
  rw [ofVec, ofVec, less?, lessList?_ofVec]

/-- The first of equal items in a row is kept or stands for them. -/
private theorem exists_dropRepeats_cons (v : Vec) (rest : List Vec) :
    ∃ others, Cellular.dropRepeats (v :: rest) = v :: others := by
  induction rest generalizing v with
  | nil => exact ⟨[], rfl⟩
  | cons w rest ih =>
      rw [Cellular.dropRepeats]
      split
      · rename_i equal
        obtain rfl := eq_of_beq equal
        exact ih v
      · exact ⟨_, rfl⟩

theorem dropRepeats_ofVec (vectors : List Vec) :
    dropRepeats (vectors.map ofVec) = (Cellular.dropRepeats vectors).map ofVec := by
  fun_induction Cellular.dropRepeats vectors with
  | case1 => rfl
  | case2 v => rfl
  | case3 v w rest equal ih =>
      rcases exists_dropRepeats_cons w rest with ⟨others, kept⟩
      obtain rfl := eq_of_beq equal
      rw [List.map_cons, dropRepeats, ih, kept]
      simp only [List.map_cons, same_ofVec, beq_self_eq_true, if_true]
  | case4 v w rest differ ih =>
      rcases exists_dropRepeats_cons w rest with ⟨others, kept⟩
      rw [List.map_cons, dropRepeats, ih, kept]
      simp only [List.map_cons, same_ofVec, differ, Bool.false_eq_true, if_false]

private theorem areComparable_ofVec (vectors : List Vec) :
    areComparable (vectors.map ofVec) = true := by
  induction vectors with
  | nil => rfl
  | cons v vectors ih =>
      cases vectors with
      | nil => rfl
      | cons w vectors =>
          rw [List.map_cons, List.map_cons, areComparable, less?_ofVec]
          exact ih

/-- Vectors are sorted as trees like vectors. -/
theorem sorted_ofVec (vectors : List Vec) :
    sorted (vectors.map ofVec) = .ok ((sortedSet Vec.le vectors).map ofVec) := by
  have alike : ∀ v ∈ vectors, ∀ w ∈ vectors,
      v.le w = ((ofVec w).less? (ofVec v) != some true) := by
    intro v _ w _
    rw [less?_ofVec]
    cases v.le w <;> rfl
  rw [sorted, ← List.map_mergeSort alike, dropRepeats_ofVec, areComparable_ofVec]
  rfl

/-! ## Lines and cubes -/

theorem unit_whole (rank : Nat) (axis magnitude : Int) :
    unit (whole rank) (whole axis) (whole magnitude) =
      .ok (ofVec (Vec.unit rank axis magnitude)) := by
  have coordinates : (List.range rank).map (fun (i : Nat) =>
      if (whole axis).same (whole i) then whole magnitude else whole 0) =
        (Vec.unit rank axis magnitude).map whole := by
    rw [Vec.unit, List.map_map]
    apply List.map_congr_left
    intro i _
    by_cases here : (i : Int) = axis
    · simp [here]
    · simp [here, Ne.symm here]
  rw [unit, integer_whole]
  exact congrArg (fun parts => Except.ok (node parts)) coordinates

@[simp]
theorem neg_whole (n : Int) : (whole n).neg = .ok (whole (-n)) :=
  rfl

theorem along_whole {memory : Nat} (rank axis : Nat) {direction : Direction} {magnitude : Int}
    (room : direction = .within → growthFault? memory (2 * magnitude.toNat) = none) :
    along memory (whole rank) (whole axis) (word direction.symbol) (whole magnitude) =
      .ok ((direction.along rank axis magnitude).map ofVec) := by
  cases direction with
  | plus => simp [along, unit_whole, Direction.symbol, Direction.along]
  | minus => simp [along, unit_whole, Direction.symbol, Direction.along]
  | plusMinus => simp [along, unit_whole, Direction.symbol, Direction.along]
  | within =>
      have steps : (List.range magnitude.toNat).mapM (fun (k : Nat) => (Except.ok
          [ofVec (Vec.unit rank axis (k + 1)), ofVec (Vec.unit rank axis (-(k + 1)))] :
            Except TreeFault (List Tree))) = .ok _ :=
        mapM_eq_ok_map fun _ _ => rfl
      simp only [along, Direction.symbol, isWord_word, String.reduceBEq, Bool.false_eq_true,
        if_false, if_true, integer_whole, room rfl, unit_whole, ok_bind, pure_eq_ok, steps,
        Direction.along, List.map_flatMap]
      rfl

/-- The length of a list that there is room for. -/
theorem length_whole {n : Nat} (short : n ≤ greatestAddress) :
    (whole n).length = .ok (n : Int) := by
  have low : ¬(greatestAddress : Int) < n := by omega
  have high : ¬(n : Int) < -(greatestAddress : Int) - 1 := by omega
  simp [length, low, high]

/-- A cube that has a place in memory is listed. -/
theorem cube_whole {memory rank : Nat} (small : rank ≤ 3) {radius : Int}
    (room : cubeFault? memory rank radius = none) :
    cube memory (whole rank) (whole radius) = .ok (Vec.hypercube rank radius) := by
  have short : rank ≤ greatestAddress := Nat.le_trans small (by decide)
  have natural : ¬(rank : Int) < 0 := by omega
  simp [cube, length_whole short, natural, room]

/-! ## Neighbourhoods -/

theorem axis_word {name : Name} {axis : Nat} (known : axisIndex? name.text = some axis) :
    name.word.axis = .ok axis := by
  rw [Name.word, word, Tree.axis, known]

variable {memory rank : Nat} (small : rank ≤ 3)

include small

/-- The offsets of a rule, if there is room for them. -/
theorem ruleOffsets_tree {rule : OffsetRule} {listed : List Vec}
    (known : rule.offsets rank = .ok listed) (room : rule.lengthFault? memory rank = none) :
    (rule.tree Name.word).ruleOffsets memory (whole rank) = .ok (listed.map ofVec) := by
  rcases rule with ⟨axis, direction, magnitude⟩
  rcases bind_eq_ok_iff.mp known with ⟨axes, named, listing⟩
  dsimp only [OffsetRule.axes, OffsetRule.lengthFault?] at named listing room
  rw [OffsetRule.tree, ruleOffsets, triple, parts]
  simp only [ok_bind, pure_eq_ok, Name.isWord_word, integer_whole, Int.toNat_natCast]
  by_cases every : axis.text = everyAxis
  · rw [if_pos every] at named
    obtain rfl := Except.ok.inj named
    rw [every, beq_self_eq_true, if_pos rfl]
    by_cases around : direction = .within
    · subst around
      rw [if_pos rfl, if_pos every] at room
      simp only [every, decide_true, Bool.and_self, if_true] at listing
      obtain rfl := pure_eq_ok_iff.mp listing
      rw [cube_whole small room]
      rfl
    · have apart : isWord "within" (word direction.symbol) = false := by
        cases direction <;> first | rfl | exact absurd rfl around
      simp only [around, decide_false, Bool.false_and, Bool.false_eq_true, if_false] at listing
      obtain rfl := pure_eq_ok_iff.mp listing
      have lines : (List.range rank).mapM (fun (i : Nat) =>
          along memory (whole rank) (whole i) (word direction.symbol) (whole magnitude)) = .ok _ :=
        mapM_eq_ok_map fun i _ => along_whole rank i fun within => absurd within around
      rw [if_neg (by simp [apart]), lines, List.map_flatMap, List.flatMap]
      rfl
  · rw [if_neg every] at named
    split at named
    · rename_i number isNumber
      obtain rfl := Except.ok.inj named
      simp only [every, decide_false, Bool.and_false, Bool.false_eq_true, if_false] at listing
      obtain rfl := pure_eq_ok_iff.mp listing
      have spacious : direction = .within → growthFault? memory (2 * magnitude.toNat) = none := by
        intro within
        rwa [if_pos within, if_neg every] at room
      rw [if_neg (by simp [every]), axis_word isNumber]
      simp only [ok_bind, along_whole rank number spacious, List.flatMap_singleton]
    · exact absurd named nofun

/-- The offsets of a neighbourhood, if there is room for them. -/
theorem offsets_tree {shape : Neighborhood} {listed : List Vec}
    (known : shape.offsets rank = .ok listed) (room : shape.lengthFault? memory rank = none) :
    (shape.tree Name.word).offsets memory (whole rank) = .ok (listed.map ofVec) := by
  cases shape with
  | moore =>
      obtain rfl := Except.ok.inj known
      have increasing := (Vec.pairwise_hypercube rank 1).filter fun v => v.chebyshev == 1
      rw [sortedSet_of_pairwise increasing]
      simp [offsets, Neighborhood.tree, tag, parts, cube_whole small room]
  | vonNeumann =>
      obtain rfl := Except.ok.inj known
      have increasing := (Vec.pairwise_hypercube rank 1).filter fun v => v.manhattan == 1
      rw [sortedSet_of_pairwise increasing]
      simp [offsets, Neighborhood.tree, tag, parts, cube_whole small room]
  | custom rules =>
      rcases bind_eq_ok_iff.mp known with ⟨lists, all, listing⟩
      obtain rfl := pure_eq_ok_iff.mp listing
      have spacious := List.findSome?_eq_none_iff.mp room
      have related := List.forall₂_and_left _ _ |>.mpr ⟨spacious, mapM_eq_ok_iff.mp all⟩
      have each : (rules.map (OffsetRule.tree Name.word)).mapM
          (fun rule => rule.ruleOffsets memory (whole rank)) =
            .ok (lists.map (List.map ofVec)) := by
        rw [mapM_eq_ok_iff, List.forall₂_map_left_iff, List.forall₂_map_right_iff]
        exact related.imp fun rule listed own => ruleOffsets_tree small own.2 own.1
      simp only [offsets, Neighborhood.tree, tag, operands, parts, ok_bind, pure_eq_ok,
        isWord_word, each, List.tail_cons, ← List.map_flatten, sorted_ofVec]
      rfl

end Tree

end Cellular
