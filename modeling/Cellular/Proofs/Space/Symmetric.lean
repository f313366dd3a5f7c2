import Cellular.Proofs.Space.Moving
import Cellular.Proofs.Space.Offsets
import Mathlib.Data.List.Nodup
import Mathlib.Data.List.Perm.Subperm

/-!
# Symmetric neighbourhoods

The vectors around a cell stay around it when an axis is flipped or when the axes are
permuted, and vectors along an axis stay along an axis. So the neighbourhoods that look both
ways along every axis they mention are closed under flipping any axis, and those that treat
all axes alike are closed under every permutation of the axes.
-/

namespace Cellular

/-! ## By coordinates -/

namespace Vec

theorem forall_mem_iff_coordinate {v : Vec} {p : Int → Prop} :
    (∀ c ∈ v, p c) ↔ ∀ axis < v.length, p (v.coordinate axis) := by
  rw [List.forall_mem_iff_getElem]
  apply forall₂_congr
  intro axis below
  rw [coordinate_eq_getElem below]

theorem liesAround_iff {rank : Nat} {radius : Int} {v : Vec} :
    v.LiesAround rank radius ↔ v.length = rank ∧ (∃ axis < rank, v.coordinate axis ≠ 0) ∧
      ∀ axis < rank, -radius ≤ v.coordinate axis ∧ v.coordinate axis ≤ radius := by
  have nonzero : (∃ c ∈ v, c ≠ 0) ↔ ∃ axis < v.length, v.coordinate axis ≠ 0 := by
    have zero : (∀ c ∈ v, c = 0) ↔ _ := forall_mem_iff_coordinate
    have nonzero := not_congr zero
    push Not at nonzero
    exact nonzero
  constructor
  · rintro ⟨rfl, some, bounded⟩
    exact ⟨rfl, nonzero.mp some, forall_mem_iff_coordinate.mp bounded⟩
  · rintro ⟨rfl, some, bounded⟩
    exact ⟨rfl, nonzero.mpr some, forall_mem_iff_coordinate.mpr bounded⟩

theorem liesAlong_iff {rank axis : Nat} {distance : Int} {v : Vec} :
    v.LiesAlong rank axis distance ↔ v.length = rank ∧
      ∀ i < rank, v.coordinate i = if i = axis then distance else 0 := by
  constructor
  · rintro ⟨rfl, coordinate⟩
    refine ⟨rfl, ?_⟩
    intro i below
    rw [Vec.coordinate, List.getD_eq_getElem?_getD, coordinate i below, Option.getD_some]
  · rintro ⟨rfl, coordinate⟩
    refine ⟨rfl, ?_⟩
    intro i below
    rw [← coordinate i below, coordinate_eq_getElem below, List.getElem?_eq_getElem below]

/-! ## Turned vectors -/

theorem flip_flip (axis : Nat) (v : Vec) : flip axis (flip axis v) = v := by
  apply ext_coordinate ((length_flip ..).trans (length_flip ..))
  intro i below
  rw [length_flip, length_flip] at below
  rw [coordinate_flip _ (by rwa [length_flip]), coordinate_flip _ below]
  split
  · exact Int.neg_neg _
  · rfl

theorem LiesAround.flip {rank : Nat} {radius : Int} {v : Vec} (around : v.LiesAround rank radius)
    (axis : Nat) : (flip axis v).LiesAround rank radius := by
  rcases liesAround_iff.mp around with ⟨rfl, ⟨i, below, nonzero⟩, bounded⟩
  refine liesAround_iff.mpr ⟨length_flip axis v, ⟨i, below, ?_⟩, ?_⟩
  · rw [coordinate_flip _ below]
    split
    · exact Int.neg_ne_zero.mpr nonzero
    · exact nonzero
  · intro j below
    have bound := bounded j below
    rw [coordinate_flip _ below]
    split
    · omega
    · exact bound

theorem LiesAlong.flip {rank own : Nat} {distance : Int} {v : Vec}
    (along : v.LiesAlong rank own distance) (axis : Nat) :
    (flip axis v).LiesAlong rank own (if axis = own then -distance else distance) := by
  rcases liesAlong_iff.mp along with ⟨rfl, coordinate⟩
  refine liesAlong_iff.mpr ⟨length_flip axis v, ?_⟩
  intro i below
  rw [coordinate_flip _ below, coordinate i below]
  by_cases here : i = own
  · rw [if_pos here, if_pos here, here]
  · rw [if_neg here, if_neg here, Int.neg_zero, ite_self]

section Permute

variable {rank : Nat} (axes : Equiv.Perm (Fin rank))

theorem LiesAround.permute {radius : Int} {v : Vec} (around : v.LiesAround rank radius) :
    (v.permute axes).LiesAround rank radius := by
  rcases liesAround_iff.mp around with ⟨length, ⟨i, below, nonzero⟩, bounded⟩
  refine liesAround_iff.mpr ⟨length_permute axes v, ⟨axes.symm ⟨i, below⟩, Fin.isLt _, ?_⟩, ?_⟩
  · rwa [coordinate_permute, Equiv.apply_symm_apply]
  · intro j below
    have bound := bounded (axes ⟨j, below⟩) (Fin.isLt _)
    rwa [← coordinate_permute] at bound

theorem LiesAlong.permute {distance : Int} {v : Vec} {own : Fin rank}
    (along : v.LiesAlong rank own distance) :
    (v.permute axes).LiesAlong rank (axes.symm own) distance := by
  rcases liesAlong_iff.mp along with ⟨length, coordinate⟩
  refine liesAlong_iff.mpr ⟨length_permute axes v, ?_⟩
  intro j below
  have found := coordinate_permute axes v ⟨j, below⟩
  have same : (axes ⟨j, below⟩ : Nat) = own ↔ j = axes.symm own := by
    rw [← Fin.ext_iff, ← Equiv.eq_symm_apply, Fin.ext_iff]
  rw [coordinate _ (Fin.isLt _)] at found
  simp only [same] at found
  exact found

end Permute

end Vec

/-! ## Neighbourhoods -/

/-- A direction that looks both ways. -/
def Direction.TwoSided (direction : Direction) : Prop :=
  direction = .plusMinus ∨ direction = .within

/-- A neighbourhood that looks both ways along every axis that it mentions. -/
def Neighborhood.TwoSided : Neighborhood → Prop
  | moore | vonNeumann => True
  | custom rules => ∀ rule ∈ rules, rule.direction.TwoSided

theorem Direction.TwoSided.reaches_neg {direction : Direction} (twoSided : direction.TwoSided)
    {magnitude distance : Int} (reaches : direction.Reaches magnitude distance) :
    direction.Reaches magnitude (-distance) := by
  rcases twoSided with rfl | rfl
  · rcases reaches with rfl | rfl
    · exact Or.inr rfl
    · exact Or.inl (Int.neg_neg magnitude)
  · rcases reaches with ⟨nonzero, low, high⟩
    exact ⟨by omega, by omega, by omega⟩

theorem OffsetRule.Describes.flip {rank : Nat} {rule : OffsetRule} {v : Vec}
    (described : rule.Describes rank v) (twoSided : rule.direction.TwoSided) (axis : Nat) :
    rule.Describes rank (Vec.flip axis v) := by
  rw [Describes] at described ⊢
  split
  · rename_i cube
    rw [if_pos cube] at described
    exact described.flip axis
  · rename_i lines
    rw [if_neg lines] at described
    rcases described with ⟨own, below, named, distance, reaches, along⟩
    refine ⟨own, below, named, _, ?_, along.flip axis⟩
    split
    · exact twoSided.reaches_neg reaches
    · exact reaches

/-- What looks both ways is closed under flipping an axis. -/
theorem Neighborhood.Describes.flip {rank : Nat} {shape : Neighborhood} {v : Vec}
    (described : shape.Describes rank v) (twoSided : shape.TwoSided) (axis : Nat) :
    shape.Describes rank (Vec.flip axis v) := by
  cases shape with
  | moore => exact Vec.LiesAround.flip described axis
  | vonNeumann =>
      rcases described with ⟨own, below, distance, one, along⟩
      refine ⟨own, below, _, ?_, along.flip axis⟩
      split <;> omega
  | custom rules =>
      rcases described with ⟨rule, member, described⟩
      exact ⟨rule, member, described.flip (twoSided rule member) axis⟩

/-- What treats all axes alike is closed under permuting them. -/
theorem Neighborhood.Describes.permute {rank : Nat} {shape : Neighborhood} {v : Vec}
    (described : shape.Describes rank v) (alike : shape = .moore ∨ shape = .vonNeumann)
    (axes : Equiv.Perm (Fin rank)) : shape.Describes rank (v.permute axes) := by
  rcases alike with rfl | rfl
  · exact Vec.LiesAround.permute axes described
  · rcases described with ⟨own, below, distance, one, along⟩
    have named : v.LiesAlong rank (⟨own, below⟩ : Fin rank) distance := along
    exact ⟨_, Fin.isLt _, distance, one, named.permute axes⟩

/-! ## Closed sets of offsets -/

/-- Turning the members of a finite set that is closed under turning only reorders them, if
the turning can be undone. -/
theorem perm_map_of_closed {α : Type} {items : List α} {turn back : α → α}
    (distinct : items.Nodup) (closed : ∀ a ∈ items, turn a ∈ items)
    (undo : ∀ a ∈ items, back (turn a) = a) : (items.map turn).Perm items := by
  have apart : (items.map turn).Nodup := by
    apply distinct.map_on
    intro a member b member' same
    rw [← undo a member, same, undo b member']
  have inside : items.map turn ⊆ items := by
    intro b turned
    rcases List.mem_map.mp turned with ⟨a, member, rfl⟩
    exact closed a member
  have count : (items.map turn).length = items.length := List.length_map ..
  exact (List.subperm_of_subset apart inside).perm_of_length_le (Nat.le_of_eq count.symm)

end Cellular
