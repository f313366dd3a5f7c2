import Cellular.Proofs.Space.Neighbors

/-!
# Coordinates

A vector is known by its coordinates. Sums, opposites and what a torus makes of a vector are
computed along each axis on its own, and whether a vector names a cell is decided along each
axis on its own.
-/

namespace Cellular

namespace Vec

/-- The coordinate of a vector along an axis. Beyond the last axis it is zero. -/
def coordinate (v : Vec) (axis : Nat) : Int :=
  v.getD axis 0

theorem coordinate_eq_getElem {v : Vec} {axis : Nat} (below : axis < v.length) :
    v.coordinate axis = v[axis] := by
  rw [coordinate, List.getD_eq_getElem?_getD, List.getElem?_eq_getElem below, Option.getD_some]

/-- Vectors of one length with the same coordinates are equal. -/
theorem ext_coordinate {v w : Vec} (same : v.length = w.length)
    (each : ∀ axis < v.length, v.coordinate axis = w.coordinate axis) : v = w := by
  apply List.ext_getElem same
  intro axis below below'
  rw [← coordinate_eq_getElem below, ← coordinate_eq_getElem below', each axis below]

theorem length_add {v w : Vec} {rank : Nat} (first : v.length = rank) (second : w.length = rank) :
    (add v w).length = rank := by
  rw [add, List.length_zipWith, first, second, Nat.min_self]

theorem coordinate_add {v w : Vec} (same : v.length = w.length) (axis : Nat) :
    (add v w).coordinate axis = v.coordinate axis + w.coordinate axis := by
  induction v generalizing w axis with
  | nil =>
      obtain rfl := List.length_eq_zero_iff.mp same.symm
      rfl
  | cons c v ih =>
      rcases w with _ | ⟨d, w⟩
      · simp at same
      cases axis with
      | zero => rfl
      | succ axis => exact ih (Nat.succ.inj same) axis

/-- What is added and taken away again makes no difference. -/
theorem add_add_neg {v w : Vec} (same : v.length = w.length) :
    add (add v w) (neg w) = v := by
  induction v generalizing w with
  | nil => rfl
  | cons a v ih =>
      rcases w with _ | ⟨b, w⟩
      · simp at same
      have first : a + b + -b = a := Int.add_neg_cancel_right a b
      calc
        add (add (a :: v) (b :: w)) (neg (b :: w))
          = (a + b + -b) :: add (add v w) (neg w) := rfl
        _ = a :: v := by rw [first, ih (Nat.succ.inj same)]

theorem length_neg (v : Vec) : v.neg.length = v.length :=
  List.length_map ..

end Vec

theorem length_wrapInto {v : Vec} {shape : List Nat} (same : v.length = shape.length) :
    (wrapInto v shape).length = shape.length := by
  rw [wrapInto, List.length_zipWith, same, Nat.min_self]

theorem coordinate_wrapInto {v : Vec} {shape : List Nat} (same : v.length = shape.length)
    (axis : Nat) :
    (wrapInto v shape).coordinate axis = v.coordinate axis % (shape.getD axis 0 : Nat) := by
  induction shape generalizing v axis with
  | nil =>
      obtain rfl := List.length_eq_zero_iff.mp same
      rfl
  | cons n shape ih =>
      rcases v with _ | ⟨c, v⟩
      · simp at same
      cases axis with
      | zero => rfl
      | succ axis => exact ih (Nat.succ.inj same) axis

/-- A vector names a cell if along every axis it stays between zero and the extent. -/
theorem isCell_iff_coordinate {v : Vec} {shape : List Nat} :
    isCell v shape = true ↔ v.length = shape.length ∧
      ∀ axis < shape.length, 0 ≤ v.coordinate axis ∧ v.coordinate axis < shape.getD axis 0 := by
  induction shape generalizing v with
  | nil =>
      rw [List.length_nil, List.length_eq_zero_iff]
      constructor
      · intro inside
        exact ⟨List.length_eq_zero_iff.mp (length_eq_of_isCell inside), nofun⟩
      · rintro ⟨rfl, _⟩
        rfl
  | cons n shape ih =>
      rcases v with _ | ⟨c, v⟩
      · simp [isCell]
      rw [isCell_cons, Bool.and_eq_true, Bool.and_eq_true, decide_eq_true_eq, decide_eq_true_eq, ih]
      constructor
      · rintro ⟨first, length, others⟩
        refine ⟨congrArg Nat.succ length, ?_⟩
        intro axis below
        cases axis with
        | zero => exact first
        | succ axis => exact others axis (Nat.lt_of_succ_lt_succ below)
      · rintro ⟨length, each⟩
        refine ⟨each 0 (Nat.succ_pos _), Nat.succ.inj length, ?_⟩
        intro axis below
        exact each (axis + 1) (Nat.succ_lt_succ below)

end Cellular
