import Cellular.Proofs.Space.Coordinates
import Cellular.Proofs.Space.Copies
import Mathlib.Logic.Equiv.Defs

/-!
# Moving a grid

A torus may be shifted, any grid may be reflected along one of its axes, and its axes may be
permuted. Each of these moves the cells of a grid to the cells of another one and takes the
values along.

A reflection and a permutation of the axes also move what lies beyond the edge, so that the
neighbours of a cell, whatever the boundary, become the neighbours of the moved cell once the
offsets are turned along. A shift does this on a torus only, and leaves the offsets alone.
-/

namespace Cellular

/-! ## Moved grids -/

/-- A grid shows at the moved cells what another one shows at the cells. -/
structure Grid.Moved {α : Type} (move : Vec → Vec) (grid moved : Grid α) : Prop where
  /-- Every cell is where some cell was moved to. -/
  onto : ∀ cell, isCell cell moved.shape → ∃ origin, isCell origin grid.shape ∧ move origin = cell
  /-- A value goes where its cell goes. -/
  get? : ∀ cell, isCell cell grid.shape → moved.get? (move cell) = grid.get? cell

/-- A grid is known by its shape and by the grid that was moved to it. -/
theorem Grid.Moved.unique {α : Type} {move : Vec → Vec} {grid first second : Grid α}
    (here : grid.Moved move first) (there : grid.Moved move second)
    (same : first.shape = second.shape) : first = second := by
  apply Grid.ext_get? same
  intro cell inside
  rcases here.onto cell inside with ⟨origin, inside', rfl⟩
  rw [here.get? origin inside', there.get? origin inside']

/-! ## Motions -/

/-- All vectors of a space are moved to vectors of another one, and offsets are turned along.
Cells go to cells, and the moved torus closes where the torus closes. -/
structure Motion (shape other : List Nat) (move turn : Vec → Vec) : Prop where
  isCell_iff : ∀ v : Vec, v.length = shape.length → (isCell (move v) other ↔ isCell v shape)
  onto : ∀ v : Vec, v.length = other.length → ∃ origin : Vec,
    origin.length = shape.length ∧ move origin = v
  add : ∀ v offset : Vec, v.length = shape.length → offset.length = shape.length →
    move (Vec.add v offset) = Vec.add (move v) (turn offset)
  wrap : ∀ v : Vec, v.length = shape.length → wrapInto (move v) other = move (wrapInto v shape)

namespace Motion

variable {shape other : List Nat} {move turn : Vec → Vec}

/-- The grid that shows at every cell the value at the cell that was moved there. -/
theorem moved_ofFn {α : Type} {grid : Grid α} (motion : Motion grid.shape other move turn)
    {back : Vec → Vec} (undo : ∀ v : Vec, v.length = grid.shape.length → back (move v) = v)
    (beyond : α) :
    grid.Moved move (Grid.ofFn other fun cell => grid.getD (back cell) beyond) := by
  constructor
  · intro cell inside
    rcases motion.onto cell (length_eq_of_isCell inside) with ⟨origin, length, rfl⟩
    exact ⟨origin, (motion.isCell_iff origin length).mp inside, rfl⟩
  · intro cell inside
    have length := length_eq_of_isCell inside
    rw [Grid.get?_ofFn_of_isCell ((motion.isCell_iff cell length).mpr inside), undo cell length,
      Grid.get?_eq_some_getD inside beyond]

theorem get?_moved {α : Type} {grid moved : Grid α}
    (motion : Motion grid.shape moved.shape move turn) (took : grid.Moved move moved) {v : Vec}
    (length : v.length = grid.shape.length) : moved.get? (move v) = grid.get? v := by
  by_cases inside : isCell v grid.shape
  · exact took.get? v inside
  · rw [Grid.get?_eq_none inside, Grid.get?_eq_none (mt (motion.isCell_iff v length).mp inside)]

/-- A moved cell sees at the turned offset what the cell sees at the offset, whatever lies
beyond the edge. -/
theorem neighborState_moved {σ : Type} {grid moved : Grid σ}
    (motion : Motion grid.shape moved.shape move turn) (took : grid.Moved move moved)
    (boundary : Boundary σ) {cell offset : Vec} (inside : isCell cell grid.shape)
    (same : offset.length = grid.shape.length) :
    boundary.neighborState moved (move cell) (turn offset) =
      boundary.neighborState grid cell offset := by
  have length := length_eq_of_isCell inside
  have target := Vec.length_add length same
  have added := motion.add cell offset length same
  cases boundary with
  | void =>
      rw [Boundary.neighborState, Boundary.neighborState, ← added, motion.get?_moved took target]
  | wrap =>
      rw [Boundary.neighborState, Boundary.neighborState, ← added, motion.wrap _ target,
        motion.get?_moved took (length_wrapInto target)]
  | static state =>
      rw [Boundary.neighborState, Boundary.neighborState, ← added, Grid.getD, Grid.getD,
        motion.get?_moved took target]

end Motion

/-! ## Shifting a torus -/

/-- The grid shifted as a torus. -/
def Grid.translate (grid : Grid Nat) (shift : Vec) : Grid Nat :=
  grid.roll shift.neg 0

theorem Vec.neg_neg (v : Vec) : v.neg.neg = v := by
  rw [neg, neg, List.map_map]
  exact (List.map_congr_left fun c _ => Int.neg_neg c).trans (List.map_id v)

/-- Shifting moves every cell by the shift. -/
theorem Grid.moved_translate (grid : Grid Nat) {shift : Vec}
    (same : shift.length = grid.shape.length) :
    grid.Moved (fun cell => wrapInto (Vec.add cell shift) grid.shape) (grid.translate shift) := by
  have opposite : shift.neg.length = grid.shape.length := (Vec.length_neg shift).trans same
  constructor
  · intro cell inside
    have inside' : isCell cell grid.shape := inside
    have length := length_eq_of_isCell inside'
    refine ⟨wrapInto (Vec.add cell shift.neg) grid.shape, ?_, wrapInto_add_neg inside' same⟩
    exact isCell_wrapInto inside' (Vec.length_add length opposite)
  · intro cell inside
    have moved := Grid.get?_roll (0 : Nat) inside opposite
    rwa [Vec.neg_neg] at moved

/-- On a torus it does not matter when a sum is taken back into the torus. -/
theorem wrapInto_add_wrapInto {shape : List Nat} {v w : Vec} (length : v.length = shape.length)
    (same : w.length = shape.length) :
    wrapInto (Vec.add (wrapInto v shape) w) shape = wrapInto (Vec.add v w) shape := by
  have wrapped := length_wrapInto length
  have sum := Vec.length_add length same
  have sum' := Vec.length_add wrapped same
  apply Vec.ext_coordinate ((length_wrapInto sum').trans (length_wrapInto sum).symm)
  intro axis _
  rw [coordinate_wrapInto sum', coordinate_wrapInto sum,
    Vec.coordinate_add (wrapped.trans same.symm), Vec.coordinate_add (length.trans same.symm),
    coordinate_wrapInto length, Int.emod_add_emod]

theorem Vec.add_right_comm {u v w : Vec} {rank : Nat} (first : u.length = rank)
    (second : v.length = rank) (third : w.length = rank) :
    add (add u v) w = add (add u w) v := by
  have before := length_add first second
  have after := length_add first third
  apply ext_coordinate ((length_add before third).trans (length_add after second).symm)
  intro axis _
  rw [coordinate_add (before.trans third.symm), coordinate_add (after.trans second.symm),
    coordinate_add (first.trans second.symm), coordinate_add (first.trans third.symm)]
  omega

/-- On a torus a shifted cell sees what the cell sees. -/
theorem Boundary.neighborState_translate (grid : Grid Nat) {shift cell offset : Vec}
    (inside : isCell cell grid.shape) (shifted : shift.length = grid.shape.length)
    (same : offset.length = grid.shape.length) :
    wrap.neighborState (grid.translate shift) (wrapInto (Vec.add cell shift) grid.shape) offset =
      wrap.neighborState grid cell offset := by
  have length := length_eq_of_isCell inside
  have target := Vec.length_add length same
  have moved := Vec.length_add length shifted
  have turned : wrapInto (Vec.add (wrapInto (Vec.add cell shift) grid.shape) offset) grid.shape =
      wrapInto (Vec.add (wrapInto (Vec.add cell offset) grid.shape) shift) grid.shape := by
    rw [wrapInto_add_wrapInto moved same, wrapInto_add_wrapInto target shifted,
      Vec.add_right_comm length shifted same]
  have found := (grid.moved_translate shifted).get? _ (isCell_wrapInto inside target)
  rw [neighborState, neighborState, ← found, ← turned]
  rfl

/-! ## Reflecting along an axis -/

namespace Vec

/-- The vector with the opposite coordinate along one axis. -/
def flip (axis : Nat) (v : Vec) : Vec :=
  v.modify axis (- ·)

/-- The vector as it is seen in a mirror across one axis of a grid. -/
def mirror (shape : List Nat) (axis : Nat) (v : Vec) : Vec :=
  v.modify axis fun c => (shape.getD axis 0 : Nat) - 1 - c

theorem length_flip (axis : Nat) (v : Vec) : (flip axis v).length = v.length :=
  List.length_modify ..

theorem length_mirror (shape : List Nat) (axis : Nat) (v : Vec) :
    (mirror shape axis v).length = v.length :=
  List.length_modify ..

private theorem coordinate_modify (f : Int → Int) (axis : Nat) {v : Vec} {i : Nat}
    (below : i < v.length) :
    coordinate (v.modify axis f) i = if axis = i then f (v.coordinate i) else v.coordinate i := by
  have below' : i < (v.modify axis f).length := by rwa [List.length_modify]
  rw [coordinate_eq_getElem below', coordinate_eq_getElem below, List.getElem_modify]

theorem coordinate_flip (axis : Nat) {v : Vec} {i : Nat} (below : i < v.length) :
    (flip axis v).coordinate i = if axis = i then -v.coordinate i else v.coordinate i :=
  coordinate_modify _ axis below

theorem coordinate_mirror (shape : List Nat) (axis : Nat) {v : Vec} {i : Nat}
    (below : i < v.length) :
    (mirror shape axis v).coordinate i =
      if axis = i then (shape.getD i 0 : Nat) - 1 - v.coordinate i else v.coordinate i := by
  rw [mirror, coordinate_modify _ axis below]
  split
  · rename_i same
    rw [same]
  · rfl

theorem mirror_mirror (shape : List Nat) (axis : Nat) (v : Vec) :
    mirror shape axis (mirror shape axis v) = v := by
  apply ext_coordinate ((length_mirror ..).trans (length_mirror ..))
  intro i below
  rw [length_mirror, length_mirror] at below
  rw [coordinate_mirror _ _ (by rwa [length_mirror]), coordinate_mirror _ _ below]
  split
  · omega
  · rfl

end Vec

private theorem emod_mirror (n : Nat) (c : Int) : ((n : Int) - 1 - c) % n = n - 1 - c % n := by
  rcases Nat.eq_zero_or_pos n with rfl | positive
  · simp
  · have low := Int.emod_nonneg c (by omega : (n : Int) ≠ 0)
    have high := Int.emod_lt_of_pos c (by omega : (0 : Int) < n)
    calc
      ((n : Int) - 1 - c) % n = (n - 1 - c % n) % n := by rw [Int.sub_emod_emod]
      _ = n - 1 - c % n := Int.emod_eq_of_lt (by omega) (by omega)

/-- A mirror turns offsets to the other side. -/
theorem motion_mirror (shape : List Nat) (axis : Nat) :
    Motion shape shape (Vec.mirror shape axis) (Vec.flip axis) where
  isCell_iff v length := by
    rw [isCell_iff_coordinate, isCell_iff_coordinate, Vec.length_mirror]
    apply and_congr_right
    intro _
    apply forall₂_congr
    intro i below
    rw [Vec.coordinate_mirror _ _ (length ▸ below)]
    split
    · omega
    · rfl
  onto v length := by
    refine ⟨Vec.mirror shape axis v, ?_, Vec.mirror_mirror shape axis v⟩
    rw [Vec.length_mirror, length]
  add v offset length same := by
    have mirrored := (Vec.length_mirror shape axis v).trans length
    have flipped := (Vec.length_flip axis offset).trans same
    have sum := Vec.length_add length same
    apply Vec.ext_coordinate
    · rw [Vec.length_mirror, sum, Vec.length_add mirrored flipped]
    · intro i below
      rw [Vec.length_mirror, sum] at below
      rw [Vec.coordinate_mirror _ _ (sum ▸ below), Vec.coordinate_add (length.trans same.symm),
        Vec.coordinate_add (mirrored.trans flipped.symm),
        Vec.coordinate_mirror _ _ (length ▸ below), Vec.coordinate_flip _ (same ▸ below)]
      split
      · omega
      · rfl
  wrap v length := by
    have mirrored := (Vec.length_mirror shape axis v).trans length
    have wrapped := length_wrapInto length
    apply Vec.ext_coordinate
    · rw [length_wrapInto mirrored, Vec.length_mirror, wrapped]
    · intro i below
      rw [length_wrapInto mirrored] at below
      rw [coordinate_wrapInto mirrored, Vec.coordinate_mirror _ _ (length ▸ below),
        Vec.coordinate_mirror _ _ (wrapped ▸ below), coordinate_wrapInto length]
      split
      · exact emod_mirror ..
      · rfl

/-- The grid reflected along an axis: the first cells come last. -/
def Grid.reflect (grid : Grid Nat) (axis : Nat) : Grid Nat :=
  Grid.ofFn grid.shape fun cell => grid.getD (cell.mirror grid.shape axis) 0

theorem Grid.moved_reflect (grid : Grid Nat) (axis : Nat) :
    grid.Moved (Vec.mirror grid.shape axis) (grid.reflect axis) :=
  (motion_mirror grid.shape axis).moved_ofFn (fun v _ => Vec.mirror_mirror grid.shape axis v) 0

/-! ## Permuting the axes -/

/-- A list with one entry for each axis, in another order of the axes. -/
def permuted {α : Type} {rank : Nat} (axes : Equiv.Perm (Fin rank)) (missing : α)
    (items : List α) : List α :=
  List.ofFn fun axis => items.getD (axes axis) missing

namespace Vec

variable {rank : Nat} (axes : Equiv.Perm (Fin rank))

/-- The vector with its coordinates in another order of the axes. -/
def permute (v : Vec) : Vec :=
  permuted axes 0 v

theorem length_permute (v : Vec) : (v.permute axes).length = rank :=
  List.length_ofFn

theorem coordinate_permute (v : Vec) (axis : Fin rank) :
    (v.permute axes).coordinate axis = v.coordinate (axes axis) := by
  have below : (axis : Nat) < (v.permute axes).length := by
    rw [length_permute]
    exact axis.isLt
  rw [coordinate_eq_getElem below]
  exact List.getElem_ofFn below

/-- Vectors of a rank are equal if they agree on all axes. -/
theorem ext_axis {v w : Vec} (length : v.length = rank) (length' : w.length = rank)
    (each : ∀ axis : Fin rank, v.coordinate axis = w.coordinate axis) : v = w := by
  apply ext_coordinate (length.trans length'.symm)
  intro axis below
  exact each ⟨axis, length ▸ below⟩

theorem permute_symm_permute {v : Vec} (length : v.length = rank) :
    (v.permute axes).permute axes.symm = v := by
  apply ext_axis (length_permute ..) length
  intro axis
  rw [coordinate_permute, coordinate_permute, Equiv.apply_symm_apply]

theorem permute_permute_symm {v : Vec} (length : v.length = rank) :
    (v.permute axes.symm).permute axes = v :=
  permute_symm_permute axes.symm length

end Vec

theorem getD_permuted {rank : Nat} (axes : Equiv.Perm (Fin rank)) (shape : List Nat)
    (axis : Fin rank) :
    (permuted axes 0 shape).getD axis 0 = shape.getD (axes axis) 0 := by
  rw [permuted, List.getD_eq_getElem?_getD, List.getElem?_ofFn, dif_pos axis.isLt,
    Option.getD_some]

/-- A permutation of the axes permutes the coordinates of offsets alike. -/
theorem motion_permute {rank : Nat} (axes : Equiv.Perm (Fin rank)) {shape : List Nat}
    (ranked : shape.length = rank) :
    Motion shape (permuted axes 0 shape) (Vec.permute axes) (Vec.permute axes) where
  isCell_iff v length := by
    have count : (permuted axes 0 shape).length = rank := List.length_ofFn
    rw [isCell_iff_coordinate, isCell_iff_coordinate, Vec.length_permute, count, length, ranked]
    apply and_congr_right
    intro _
    constructor
    · intro each axis below
      have own := each (axes.symm ⟨axis, below⟩) (Fin.isLt _)
      rwa [Vec.coordinate_permute, getD_permuted, Equiv.apply_symm_apply] at own
    · intro each axis below
      have own := each (axes ⟨axis, below⟩) (Fin.isLt _)
      rwa [← Vec.coordinate_permute, ← getD_permuted] at own
  onto v length := by
    refine ⟨v.permute axes.symm, ?_, Vec.permute_permute_symm axes (length.trans List.length_ofFn)⟩
    rw [Vec.length_permute, ranked]
  add v offset length same := by
    have turned := Vec.length_permute axes v
    have turned' := Vec.length_permute axes offset
    apply Vec.ext_axis (Vec.length_permute ..) (Vec.length_add turned turned')
    intro axis
    rw [Vec.coordinate_permute, Vec.coordinate_add (length.trans same.symm),
      Vec.coordinate_add (turned.trans turned'.symm), Vec.coordinate_permute,
      Vec.coordinate_permute]
  wrap v length := by
    have turned : (v.permute axes).length = (permuted axes 0 shape).length := by
      rw [Vec.length_permute, permuted, List.length_ofFn]
    apply Vec.ext_axis
    · rw [length_wrapInto turned, permuted, List.length_ofFn]
    · exact Vec.length_permute ..
    · intro axis
      rw [coordinate_wrapInto turned, Vec.coordinate_permute, Vec.coordinate_permute,
        coordinate_wrapInto length, getD_permuted]

/-- The grid with its axes in another order. -/
def Grid.transpose {rank : Nat} (grid : Grid Nat) (axes : Equiv.Perm (Fin rank)) : Grid Nat :=
  Grid.ofFn (permuted axes 0 grid.shape) fun cell => grid.getD (cell.permute axes.symm) 0

theorem Grid.moved_transpose {rank : Nat} {grid : Grid Nat} (axes : Equiv.Perm (Fin rank))
    (ranked : grid.shape.length = rank) :
    grid.Moved (Vec.permute axes) (grid.transpose axes) :=
  (motion_permute axes ranked).moved_ofFn
    (fun _ length => Vec.permute_symm_permute axes (length.trans ranked)) 0

end Cellular
