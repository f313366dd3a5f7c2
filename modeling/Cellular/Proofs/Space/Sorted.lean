import Cellular.Space.Grid
import Cellular.Space.Sorted

/-!
# Sorted sets are sets

Sorting a list and dropping its repeats changes neither what occurs in it nor, if the order
is total and antisymmetric, anything else about the set: every member occurs once, and the
members come in strictly increasing order.
-/

namespace Cellular

section Sorted

variable {α : Type} [BEq α] [LawfulBEq α]

theorem mem_dropRepeats {a : α} {items : List α} : a ∈ dropRepeats items ↔ a ∈ items := by
  fun_induction dropRepeats items with
  | case1 => rfl
  | case2 b => rfl
  | case3 b c rest same ih =>
      rw [ih, eq_of_beq same]
      simp
  | case4 b c rest differ ih => rw [List.mem_cons, ih, ← List.mem_cons]

@[simp]
theorem mem_sortedSet {le : α → α → Bool} {a : α} {items : List α} :
    a ∈ sortedSet le items ↔ a ∈ items := by
  rw [sortedSet, mem_dropRepeats, List.mem_mergeSort]

theorem pairwise_dropRepeats {le : α → α → Bool}
    (antisymm : ∀ a b, le a b = true → le b a = true → a = b) {items : List α}
    (sorted : items.Pairwise fun a b => le a b = true) :
    (dropRepeats items).Pairwise fun a b => le a b = true ∧ a ≠ b := by
  fun_induction dropRepeats items with
  | case1 => exact List.Pairwise.nil
  | case2 b => exact List.pairwise_singleton _ b
  | case3 b c rest same ih => exact ih sorted.of_cons
  | case4 b c rest differ ih =>
      rcases List.pairwise_cons.mp sorted with ⟨least, others⟩
      refine List.pairwise_cons.mpr ⟨?_, ih others⟩
      intro a member
      rw [mem_dropRepeats] at member
      constructor
      · exact least a member
      · rintro rfl
        rcases List.mem_cons.mp member with rfl | member
        · exact differ (beq_self_eq_true b)
        · have back := (List.pairwise_cons.mp others).1 b member
          exact differ (beq_iff_eq.mpr (antisymm b c (least c List.mem_cons_self) back))

/-- A sorted set is in strictly increasing order. -/
theorem pairwise_sortedSet {le : α → α → Bool}
    (trans : ∀ a b c, le a b = true → le b c = true → le a c = true)
    (total : ∀ a b, (le a b || le b a) = true)
    (antisymm : ∀ a b, le a b = true → le b a = true → a = b) (items : List α) :
    (sortedSet le items).Pairwise fun a b => le a b = true ∧ a ≠ b :=
  pairwise_dropRepeats antisymm (List.pairwise_mergeSort trans total items)

theorem dropRepeats_of_pairwise {R : α → α → Prop} {items : List α}
    (increasing : items.Pairwise fun a b => R a b ∧ a ≠ b) : dropRepeats items = items := by
  fun_induction dropRepeats items with
  | case1 => rfl
  | case2 b => rfl
  | case3 b c rest same ih =>
      have apart := (List.pairwise_cons.mp increasing).1 c List.mem_cons_self
      exact absurd (eq_of_beq same) apart.2
  | case4 b c rest differ ih => rw [ih increasing.of_cons]

/-- A list in strictly increasing order is the sorted set of its items. -/
theorem sortedSet_of_pairwise {le : α → α → Bool} {items : List α}
    (increasing : items.Pairwise fun a b => le a b = true ∧ a ≠ b) :
    sortedSet le items = items := by
  rw [sortedSet, List.mergeSort_of_pairwise (increasing.imp And.left),
    dropRepeats_of_pairwise increasing]

end Sorted

/-! ## The order of vectors -/

namespace Vec

theorem le_trans (u v w : Vec) (first : u.le v = true) (second : v.le w = true) :
    u.le w = true := by
  induction u generalizing v w with
  | nil => rfl
  | cons a u ih =>
      rcases v with _ | ⟨b, v⟩
      · exact absurd first (by simp [le])
      rcases w with _ | ⟨c, w⟩
      · exact absurd second (by simp [le])
      simp only [le, Bool.or_eq_true, Bool.and_eq_true, decide_eq_true_eq, beq_iff_eq]
        at first second ⊢
      rcases first with below | ⟨rfl, rest⟩
      · rcases second with below' | ⟨rfl, _⟩
        · exact Or.inl (Int.lt_trans below below')
        · exact Or.inl below
      · rcases second with below' | ⟨rfl, rest'⟩
        · exact Or.inl below'
        · exact Or.inr ⟨rfl, ih v w rest rest'⟩

theorem le_total (v w : Vec) : (v.le w || w.le v) = true := by
  induction v generalizing w with
  | nil => rfl
  | cons a v ih =>
      rcases w with _ | ⟨b, w⟩
      · rfl
      simp only [le, Bool.or_eq_true, Bool.and_eq_true, decide_eq_true_eq, beq_iff_eq]
      rcases Int.lt_trichotomy a b with below | rfl | above
      · exact Or.inl (Or.inl below)
      · rcases Bool.or_eq_true_iff.mp (ih w) with rest | rest
        · exact Or.inl (Or.inr ⟨rfl, rest⟩)
        · exact Or.inr (Or.inr ⟨rfl, rest⟩)
      · exact Or.inr (Or.inl above)

theorem le_antisymm (v w : Vec) (first : v.le w = true) (second : w.le v = true) : v = w := by
  induction v generalizing w with
  | nil =>
      rcases w with _ | ⟨b, w⟩
      · rfl
      · exact absurd second (by simp [le])
  | cons a v ih =>
      rcases w with _ | ⟨b, w⟩
      · exact absurd first (by simp [le])
      simp only [le, Bool.or_eq_true, Bool.and_eq_true, decide_eq_true_eq, beq_iff_eq]
        at first second
      rcases first with below | ⟨rfl, rest⟩
      · rcases second with below' | ⟨rfl, _⟩
        · exact absurd below' (Int.lt_asymm below)
        · exact absurd below (Int.lt_irrefl _)
      · rcases second with below' | ⟨_, rest'⟩
        · exact absurd below' (Int.lt_irrefl _)
        · rw [ih w rest rest']

/-- Sorted sets of vectors are in strictly increasing order. -/
theorem increasing_sortedSet (items : List Vec) :
    (sortedSet Vec.le items).Pairwise fun v w => v.le w = true ∧ v ≠ w :=
  pairwise_sortedSet le_trans le_total le_antisymm items

/-- The order of vectors is the lexicographic one. -/
theorem lt_of_le_of_ne {v w : Vec} (before : v.le w = true) (apart : v ≠ w) : v < w := by
  induction v generalizing w with
  | nil =>
      rcases w with _ | ⟨b, w⟩
      · exact absurd rfl apart
      · exact List.nil_lt_cons b w
  | cons a v ih =>
      rcases w with _ | ⟨b, w⟩
      · exact absurd before (by simp [le])
      simp only [le, Bool.or_eq_true, Bool.and_eq_true, decide_eq_true_eq, beq_iff_eq] at before
      rw [List.cons_lt_cons_iff]
      rcases before with below | ⟨rfl, rest⟩
      · exact Or.inl below
      · exact Or.inr ⟨rfl, ih rest fun same => apart (congrArg (a :: ·) same)⟩

/-- Vectors are listed in strictly increasing order if their first coordinates are and, for
each of these, the others are. -/
theorem increasing_flatMap {β : Type} {heads : List β} {first : β → Int} {others : List Vec}
    (increasing : heads.Pairwise fun a b => first a < first b)
    (increasing' : others.Pairwise fun v w => v.le w = true ∧ v ≠ w) :
    (heads.flatMap fun a => others.map (first a :: ·)).Pairwise fun v w : Vec =>
      v.le w = true ∧ v ≠ w := by
  rw [List.pairwise_flatMap]
  constructor
  · intro a _
    rw [List.pairwise_map]
    apply increasing'.imp
    rintro v w ⟨before, apart⟩
    exact ⟨by simp [le, before], fun same => apart (List.cons.inj same).2⟩
  · apply increasing.imp
    intro a b before v inFirst w inSecond
    rcases List.mem_map.mp inFirst with ⟨v, _, rfl⟩
    rcases List.mem_map.mp inSecond with ⟨w, _, rfl⟩
    exact ⟨by simp [le, before], fun same => Int.ne_of_lt before (List.cons.inj same).1⟩

/-- The cells of a grid are listed in strictly increasing order. -/
theorem increasing_coordinates (shape : List Nat) :
    (coordinates shape).Pairwise fun v w => v.le w = true ∧ v ≠ w := by
  induction shape with
  | nil => exact List.pairwise_singleton _ _
  | cons n shape ih => exact increasing_flatMap (List.pairwise_lt_range.imp Int.ofNat_lt.mpr) ih

end Vec

/-- Sorted sets of numbers have no repeats. -/
theorem nodup_sortedSet_nat (items : List Nat) : (sortedSet Nat.ble items).Nodup := by
  apply List.Pairwise.imp And.right
  apply pairwise_sortedSet
  · simp only [Nat.ble_eq]
    exact fun a b c => Nat.le_trans
  · intro a b
    simp only [Bool.or_eq_true, Nat.ble_eq]
    exact Nat.le_total a b
  · simp only [Nat.ble_eq]
    exact fun a b => Nat.le_antisymm

theorem sortedSet_singleton {α : Type} [BEq α] (le : α → α → Bool) (a : α) :
    sortedSet le [a] = [a] := by
  rw [sortedSet, List.mergeSort_singleton]
  rfl

end Cellular
