import Cellular.Proofs.Engine.Counts
import Cellular.Proofs.Engine.LightCone
import Cellular.Proofs.Engine.Symmetry
import Cellular.Proofs.Validation.Canonical
import Mathlib.Data.List.ProdSigma

/-!
# Handshakes

A link leads from a cell along an offset to a cell. Adding up counts of neighbours over cells
is counting links: each of them is seen once, from the cell where it begins. On a torus every
link can be followed to its end, along the same offset, which only reorders the links. If the
offsets are closed under taking opposites, every link can be walked back, on a torus and in a
void. So the sums of counts do not depend on the end from which the links are seen.
-/

namespace Cellular

/-! ## Counting pairs -/

/-- Pairs are counted by their first parts. -/
theorem countP_product {α β : Type} (items : List α) (others : List β) (p : α → Bool)
    (q : α → β → Bool) :
    (items ×ˢ others).countP (fun pair => p pair.1 && q pair.1 pair.2) =
      ((items.filter p).map fun a => others.countP (q a)).sum := by
  induction items with
  | nil => rfl
  | cons a items ih =>
      rw [List.product_cons, List.countP_append, List.countP_map, ih, List.filter_cons]
      cases known : p a with
      | false => simp [Function.comp_def, known]
      | true => simp [Function.comp_def, known]

/-! ## Links -/

/-- From where an offset leads, the opposite offset leads back. -/
theorem Boundary.destination_neg {σ : Type} (boundary : Boundary σ) {shape : List Nat}
    {cell offset : Vec} (inside : isCell cell shape) (same : offset.length = shape.length) :
    boundary.destination shape (boundary.destination shape cell offset) offset.neg = cell := by
  cases boundary with
  | void | static _ => exact Vec.add_add_neg ((length_eq_of_isCell inside).trans same.symm)
  | wrap =>
      have undone := wrapInto_add_neg inside ((Vec.length_neg offset).trans same)
      rwa [Vec.neg_neg] at undone

namespace Program

/-- The cells with the offsets that lead from them to cells. -/
def links (program : Program) (shape : List Nat) : List (Vec × Vec) :=
  (coordinates shape ×ˢ program.offsets).filter fun link =>
    isCell (program.boundary.destination shape link.1 link.2) shape

/-- The cell at the end of a link. -/
def linkEnd (program : Program) (shape : List Nat) (link : Vec × Vec) : Vec :=
  program.boundary.destination shape link.1 link.2

/-- The link that goes on along the same offset. -/
def follow (program : Program) (shape : List Nat) (link : Vec × Vec) : Vec × Vec :=
  (program.linkEnd shape link, link.2)

/-- The link that came before along the same offset. -/
def retreat (program : Program) (shape : List Nat) (link : Vec × Vec) : Vec × Vec :=
  (program.linkEnd shape (link.1, link.2.neg), link.2)

/-- The link that leads back. -/
def reverse (program : Program) (shape : List Nat) (link : Vec × Vec) : Vec × Vec :=
  (program.linkEnd shape link, link.2.neg)

section Links

variable {program : Program} {shape : List Nat}

theorem mem_links {link : Vec × Vec} : link ∈ program.links shape ↔
    isCell link.1 shape ∧ link.2 ∈ program.offsets ∧ isCell (program.linkEnd shape link) shape := by
  rw [links, List.mem_filter, List.mem_product, mem_coordinates, and_assoc]
  exact Iff.rfl

theorem nodup_links (distinct : program.offsets.Nodup) : (program.links shape).Nodup :=
  ((nodup_coordinates shape).product distinct).filter _

variable (ranked : ∀ offset ∈ program.offsets, offset.length = shape.length)

include ranked

theorem linkEnd_reverse {link : Vec × Vec} (member : link ∈ program.links shape) :
    program.linkEnd shape (program.reverse shape link) = link.1 := by
  rcases mem_links.mp member with ⟨start, offset, _⟩
  exact program.boundary.destination_neg start (ranked _ offset)

theorem retreat_follow {link : Vec × Vec} (member : link ∈ program.links shape) :
    program.retreat shape (program.follow shape link) = link :=
  Prod.ext (linkEnd_reverse ranked member) rfl

theorem reverse_reverse {link : Vec × Vec} (member : link ∈ program.links shape) :
    program.reverse shape (program.reverse shape link) = link :=
  Prod.ext (linkEnd_reverse ranked member) (Vec.neg_neg link.2)

/-- On a torus every offset leads to a cell. -/
theorem isCell_linkEnd (torus : program.boundary = .wrap) {link : Vec × Vec}
    (start : isCell link.1 shape) (offset : link.2 ∈ program.offsets) :
    isCell (program.linkEnd shape link) shape := by
  rw [linkEnd, torus]
  exact isCell_wrapInto start (Vec.length_add (length_eq_of_isCell start) (ranked _ offset))

theorem links_eq_product (torus : program.boundary = .wrap) :
    program.links shape = coordinates shape ×ˢ program.offsets := by
  apply List.filter_eq_self.mpr
  intro link member
  rcases List.mem_product.mp member with ⟨start, offset⟩
  exact isCell_linkEnd ranked torus (mem_coordinates.mp start) offset

variable (distinct : program.offsets.Nodup)

include distinct

/-- On a torus the links are those that go on from links. -/
theorem perm_follow (torus : program.boundary = .wrap) :
    ((program.links shape).map (program.follow shape)).Perm (program.links shape) := by
  apply perm_map_of_closed (nodup_links distinct) _ fun link member => retreat_follow ranked member
  intro link member
  rcases mem_links.mp member with ⟨_, offset, inside⟩
  exact mem_links.mpr ⟨inside, offset, isCell_linkEnd ranked torus inside offset⟩

/-- If the offsets are closed under taking opposites, the links are those that lead back. -/
theorem perm_reverse (closed : program.ClosedUnder Vec.neg) :
    ((program.links shape).map (program.reverse shape)).Perm (program.links shape) := by
  apply perm_map_of_closed (nodup_links distinct) _ fun link member => reverse_reverse ranked member
  intro link member
  rcases mem_links.mp member with ⟨start, offset, inside⟩
  refine mem_links.mpr ⟨inside, closed _ offset, ?_⟩
  rw [linkEnd_reverse ranked member]
  exact start

end Links

end Program

/-! ## Sums of counts -/

/-- Whether a grid shows a state at a cell. -/
def Grid.showsAt (grid : Grid Nat) (state : Nat) (cell : Vec) : Bool :=
  grid.get? cell == some state

namespace Program

variable {program : Program} {grid : Grid Nat}

/-- Whether a link leads from a cell along an offset to a cell that shows a state. -/
def sees (program : Program) (grid : Grid Nat) (state : Nat) (cell offset : Vec) : Bool :=
  isCell (program.linkEnd grid.shape (cell, offset)) grid.shape &&
    grid.showsAt state (program.linkEnd grid.shape (cell, offset))

/-- Where nothing lies beyond the edge, the neighbours of a cell are at the ends of links. -/
theorem countsAt_eq_countP (unframed : program.boundary.frame = none) (cell : Vec) (state : Nat) :
    program.countsAt grid cell state = program.offsets.countP (program.sees grid state cell) := by
  rw [countsAt, neighbors, List.count_filterMap]
  apply congrArg Nat.cast
  apply List.countP_congr
  intro offset _
  rw [Boundary.neighborState_eq, unframed, sees, linkEnd, Grid.showsAt]
  split
  · rename_i inside
    rw [inside, Bool.true_and]
  · rename_i outside
    rw [Bool.eq_false_iff.mpr outside]
    simp

/-- The counts of a state at some cells count the links from these cells to the state. -/
theorem sum_countsAt (unframed : program.boundary.frame = none) (here : Vec → Bool) (state : Nat) :
    (((coordinates grid.shape).filter here).map (program.countsAt grid · state)).sum =
      ((program.links grid.shape).countP fun link =>
        here link.1 && grid.showsAt state (program.linkEnd grid.shape link) : Nat) := by
  have linked : (program.links grid.shape).countP (fun link =>
        here link.1 && grid.showsAt state (program.linkEnd grid.shape link)) =
      (coordinates grid.shape ×ˢ program.offsets).countP fun link =>
        here link.1 && program.sees grid state link.1 link.2 := by
    rw [links, List.countP_filter]
    apply List.countP_congr
    intro link _
    rw [sees, Bool.and_assoc, Bool.and_comm (grid.showsAt ..)]
    rfl
  rw [linked, countP_product, Nat.cast_list_sum, List.map_map]
  simp only [countsAt_eq_countP unframed]
  rfl

variable (ranked : ∀ offset ∈ program.offsets, offset.length = grid.shape.length)
  (distinct : program.offsets.Nodup)

include ranked distinct

/-- On a torus every cell is counted once for every offset. -/
theorem sum_countsAt_torus (torus : program.boundary = .wrap) (state : Nat) :
    ((coordinates grid.shape).map (program.countsAt grid · state)).sum =
      (program.offsets.length * (coordinates grid.shape).countP (grid.showsAt state) : Nat) := by
  have unframed : program.boundary.frame = none := by rw [torus, Boundary.frame]
  have ends : (program.links grid.shape).countP (fun link =>
        grid.showsAt state (program.linkEnd grid.shape link)) =
      (program.links grid.shape).countP fun link => grid.showsAt state link.1 := by
    rw [← (perm_follow ranked distinct torus).countP_eq fun link => grid.showsAt state link.1,
      List.countP_map]
    rfl
  have everywhere : (((coordinates grid.shape).filter fun _ => true).map
      (program.countsAt grid · state)).sum = _ := sum_countsAt unframed (fun _ => true) state
  have paired := countP_product (coordinates grid.shape) program.offsets (grid.showsAt state)
    fun _ _ => true
  simp only [List.filter_true, Bool.true_and] at everywhere
  simp only [Bool.and_true] at paired
  rw [everywhere, ends, links_eq_product ranked torus, paired, List.map_const',
    List.sum_replicate_nat, ← List.countP_eq_length_filter, List.countP_true, Nat.mul_comm]

/-- Links between two states are counted from either end. -/
theorem sum_countsAt_comm (unframed : program.boundary.frame = none)
    (closed : program.ClosedUnder Vec.neg) (first second : Nat) :
    (((coordinates grid.shape).filter (grid.showsAt first)).map
        (program.countsAt grid · second)).sum =
      (((coordinates grid.shape).filter (grid.showsAt second)).map
        (program.countsAt grid · first)).sum := by
  rw [sum_countsAt unframed, sum_countsAt unframed,
    ← (perm_reverse ranked distinct closed).countP_eq, List.countP_map]
  apply congrArg Nat.cast
  apply List.countP_congr
  intro link member
  rw [Function.comp_apply, linkEnd_reverse ranked member, Bool.and_comm]
  rfl

end Program

/-! ## Pictures -/

theorem Engine.current_of_snapshot {engine : Engine} {picture : Snapshot}
    (taken : engine.snapshot = .ok picture) :
    engine.current = some picture.grid ∧ picture.registry = engine.program.registry := by
  cases ready : engine.buffers with
  | none =>
      rw [snapshot, require, requireBuffers, ready] at taken
      cases taken
  | some buffers =>
      obtain rfl := Except.ok.inj ((snapshot_eq ready).symm.trans taken)
      rw [current, ready]
      exact ⟨rfl, rfl⟩

namespace Snapshot

variable {picture : Snapshot} {name : String} {state : Nat}
  (known : picture.registry.indexOf? name = some state)

theorem showsAt_iff {cell : Vec} (listed : cell ∈ coordinates picture.grid.shape) :
    picture.grid.showsAt state cell = (picture.grid.getD cell 0 == state) := by
  rw [Grid.showsAt, Grid.get?_eq_some_getD (mem_coordinates.mp listed) 0]
  rfl

include known

/-- The cells in a state are those that show it. They need no sorting. -/
theorem cellsIn_eq : picture.cellsIn name =
    .ok ((coordinates picture.grid.shape).filter (picture.grid.showsAt state)) := by
  have listed : (picture.grid.entries.filter fun entry => entry.2 == state).map Prod.fst =
      (coordinates picture.grid.shape).filter (picture.grid.showsAt state) := by
    rw [Grid.entries_eq _ 0, List.filter_map, List.map_map,
      List.filter_congr fun cell listed => showsAt_iff listed]
    exact List.map_id _
  have increasing := (Vec.increasing_coordinates picture.grid.shape).filter
    (picture.grid.showsAt state)
  rw [cellsIn, Registry.index, known, ok_bind, listed]
  exact congrArg Except.ok (List.mergeSort_of_pairwise (increasing.imp And.left))

theorem count_eq : picture.count name =
    .ok ((coordinates picture.grid.shape).countP (picture.grid.showsAt state)) := by
  have counted := Grid.count_ofFn picture.grid.shape (picture.grid.getD · 0) (· == state)
  rw [Grid.ofFn_getD] at counted
  rw [count, Registry.index, known, ok_bind, counted]
  apply congrArg Except.ok
  apply List.countP_congr
  intro cell listed
  rw [showsAt_iff listed]

end Snapshot

namespace Engine.Holds

variable {engine : Engine} {program : Program} {grid : Grid Nat}
  (holds : engine.Holds program grid)

include holds

/-- The counts of a state, added up over some cells, as long as a cell has room for them. -/
theorem sum_lookup (few : program.offsets.length < countLimit) {counted : List (String × Grid Int)}
    (done : engine.neighborCounts = .ok counted) {name : String} {state : Nat}
    (known : program.registry.indexOf? name = some state) (here : Vec → Bool) :
    ∃ counts, counted.lookup name = some counts ∧
      counts.cells.toList = (coordinates grid.shape).map (program.countsAt grid · state) ∧
      (((coordinates grid.shape).filter here).map (counts.getD · 0)).sum =
        (((coordinates grid.shape).filter here).map (program.countsAt grid · state)).sum := by
  have found := holds.lookup_neighborCounts done known
  simp only [Program.keptCountsAt_eq few] at found
  refine ⟨_, found, List.toList_toArray, ?_⟩
  apply congrArg List.sum
  apply List.map_congr_left
  intro cell member
  exact Grid.getD_ofFn (mem_coordinates.mp (List.mem_filter.mp member).1) _ 0

end Engine.Holds

/-! ## Neighbourhoods that look both ways -/

theorem Vec.LiesAround.neg {rank : Nat} {radius : Int} {v : Vec}
    (around : v.LiesAround rank radius) : Vec.LiesAround rank radius v.neg := by
  rcases around with ⟨rfl, ⟨c, member, nonzero⟩, bounded⟩
  refine ⟨Vec.length_neg v, ⟨-c, List.mem_map_of_mem member, Int.neg_ne_zero.mpr nonzero⟩, ?_⟩
  intro d member
  rcases List.mem_map.mp member with ⟨c, inside, rfl⟩
  have bound := bounded c inside
  omega

theorem Vec.LiesAlong.neg {rank axis : Nat} {distance : Int} {v : Vec}
    (along : v.LiesAlong rank axis distance) : Vec.LiesAlong rank axis (-distance) v.neg := by
  rcases along with ⟨rfl, coordinate⟩
  refine ⟨Vec.length_neg v, ?_⟩
  intro i below
  rw [Vec.neg, List.getElem?_map, coordinate i below, Option.map_some]
  split
  · rfl
  · rw [Int.neg_zero]

/-- What looks both ways along its axes is closed under taking opposites. -/
theorem Neighborhood.Describes.neg {rank : Nat} {shape : Neighborhood} {v : Vec}
    (described : shape.Describes rank v) (twoSided : shape.TwoSided) :
    shape.Describes rank (Vec.neg v) := by
  cases shape with
  | moore => exact Vec.LiesAround.neg described
  | vonNeumann =>
      rcases described with ⟨axis, below, distance, one, along⟩
      exact ⟨axis, below, -distance, by omega, along.neg⟩
  | custom rules =>
      rcases described with ⟨rule, member, described⟩
      refine ⟨rule, member, ?_⟩
      rw [OffsetRule.Describes] at described ⊢
      split
      · rename_i cube
        rw [if_pos cube] at described
        exact described.neg
      · rename_i lines
        rw [if_neg lines] at described
        rcases described with ⟨axis, below, named, distance, reaches, along⟩
        exact ⟨axis, below, named, _, (twoSided rule member).reaches_neg reaches, along.neg⟩

theorem Loaded.closedUnder_neg {source : String} {program : Program}
    {declarations : List Declaration} {parts : Parts} {validated : Validated}
    (loaded : Loaded source program declarations parts validated)
    (twoSided : parts.shape.TwoSided) : program.ClosedUnder Vec.neg := by
  obtain rfl := loaded.compiled
  intro offset member
  have described := loaded.accepted.mem_offsets_iff.mp member
  exact loaded.accepted.mem_offsets_iff.mpr (described.neg twoSided)

theorem Loaded.mem_names_iff {source : String} {program : Program}
    {declarations : List Declaration} {parts : Parts} {validated : Validated}
    (loaded : Loaded source program declarations parts validated) {name : String} :
    name ∈ program.registry.names ↔ name ∈ parts.entries.map (·.name.text) := by
  rw [loaded.registry_eq, ← Registry.declares_iff_mem, loaded.accepted.declares_iff]

/-! ## Handshakes -/

/-- On a torus the counts of a state, added up over all cells, are as many as there are offsets
for each cell in this state. On a torus and in a void, if the offsets are closed under taking
opposites, two states are counted around each other equally often. A cell must have room for
the number of all neighbours. -/
theorem handshake {source : String} {program : Program} (loaded : load source = .ok program)
    (few : program.offsets.length < countLimit) {engine : Engine}
    (reachable : Reachable program engine) {picture : Snapshot}
    (taken : engine.snapshot = .ok picture) {first second : String}
    (declared : first ∈ program.registry.names) (declared' : second ∈ program.registry.names) :
    ∃ counted counts counts' number cells cells',
      engine.neighborCounts = .ok counted ∧
      -- memory makes no difference, if there is enough
      (∀ memory, engine.neighborCountsInMemory memory =
        (Engine.requireRoom (program.countFault? memory picture.grid.shape
          (List.range program.registry.states.length)) >>= fun _ => .ok counted)) ∧
      counted.lookup first = some counts ∧ counted.lookup second = some counts' ∧
      picture.count first = .ok number ∧
      picture.cellsIn first = .ok cells ∧ picture.cellsIn second = .ok cells' ∧
      (program.boundary = .wrap →
        counts.cells.toList.sum = (program.offsets.length * number : Nat)) ∧
      (program.boundary = .wrap ∨ program.boundary = .void → program.ClosedUnder Vec.neg →
        (cells.map (counts'.getD · 0)).sum = (cells'.map (counts.getD · 0)).sum) := by
  rcases Engine.current_of_snapshot taken with ⟨ready, registry⟩
  rw [reachable.program_eq] at registry
  have holds := reachable.holds loaded ready
  rcases loaded_of_load loaded with ⟨_, _, _, origin⟩
  rcases Registry.mem_names_iff.mp declared with ⟨state, known⟩
  rcases Registry.mem_names_iff.mp declared' with ⟨state', known'⟩
  rcases holds.sum_lookup few holds.neighborCounts_eq known (picture.grid.showsAt state') with
    ⟨counts, found, listed, summed⟩
  rcases holds.sum_lookup few holds.neighborCounts_eq known' (picture.grid.showsAt state) with
    ⟨counts', found', _, summed'⟩
  rw [← registry] at known known'
  refine ⟨_, counts, counts', _, _, _, holds.neighborCounts_eq,
    fun memory => (holds.neighborCountsInMemory_eq memory).trans
      (by rw [holds.neighborCounts_eq]), found, found', Snapshot.count_eq known,
    Snapshot.cellsIn_eq known, Snapshot.cellsIn_eq known', ?_, ?_⟩
  · intro torus
    rw [listed, Program.sum_countsAt_torus holds.ranked origin.nodup_offsets torus]
  · intro edge closed
    have unframed : program.boundary.frame = none := by
      rcases edge with edge | edge <;> rw [edge, Boundary.frame]
    rw [summed, summed',
      Program.sum_countsAt_comm holds.ranked origin.nodup_offsets unframed closed]

/-- The parts of the program of lonely cells. -/
def lonelyParts : Parts where
  space := ⟨2, []⟩
  shape := .moore
  edge := .void
  entries := [⟨⟨"A", some ⟨1, 53⟩⟩, []⟩, ⟨⟨"B", some ⟨1, 55⟩⟩, []⟩]
  rules := [⟨⟨"A", some ⟨2, 20⟩⟩, ⟨"B", some ⟨2, 25⟩⟩, .test ⟨.equal, ⟨"B", some ⟨2, 43⟩⟩, 0⟩⟩]

/-- A lonely cell next to another one. -/
def lonelyStates : Table Vec String :=
  ⟨[([0, 0], "A"), ([0, 1], "B")], by decide⟩

theorem startable_lonely :
    lonelyParts.Startable (some [.whole 1, .whole 2]) (some lonelyStates) [1, 2] := by
  constructor
  · constructor
    · intro extents given
      exact (Option.some.inj given).symm
    · exact fun missing => absurd missing (Option.some_ne_none _)
    · rfl
    · decide
  · exact Or.inr rfl
  · intro table given entry member
    obtain rfl := Option.some.inj given
    rcases List.mem_pair.mp member with rfl | rfl <;> exact isCell_iff_liesIn.mp (by decide)
  · intro table given entry member
    obtain rfl := Option.some.inj given
    rcases List.mem_pair.mp member with rfl | rfl <;> decide
  · intro _ cell lies
    have listed := mem_coordinates.mpr (isCell_iff_liesIn.mpr lies)
    have both : coordinates [1, 2] = [[0, 0], [0, 1]] := rfl
    rw [both] at listed
    refine ⟨lonelyStates, rfl, ?_⟩
    rcases List.mem_pair.mp listed with rfl | rfl <;> rfl

/-- A ring, and two cells in a void. -/
theorem handshake_lonely :
    (∃ program engine picture counted counts number, load ringSource = .ok program ∧
      program.offsets.length < countLimit ∧ Reachable program engine ∧
      engine.snapshot = .ok picture ∧
      engine.neighborCounts = .ok counted ∧ counted.lookup "A" = some counts ∧
      picture.count "A" = .ok number ∧
      counts.cells.toList.sum = (program.offsets.length * number : Nat)) ∧
    ∃ program engine picture counted counts counts' cells cells',
      load lonelySource = .ok program ∧ program.offsets.length < countLimit ∧
      Reachable program engine ∧ engine.snapshot = .ok picture ∧
      engine.neighborCounts = .ok counted ∧
      counted.lookup "A" = some counts ∧ counted.lookup "B" = some counts' ∧
      picture.cellsIn "A" = .ok cells ∧ picture.cellsIn "B" = .ok cells' ∧
      program.boundary = .void ∧ program.ClosedUnder Vec.neg ∧
      (cells.map (counts'.getD · 0)).sum = (cells'.map (counts.getD · 0)).sum := by
  constructor
  · rcases load_ring with ⟨program, engine, loaded, ⟨_, torus, single⟩, started⟩
    have few : program.offsets.length < countLimit := by
      rw [single]
      decide
    rcases loaded_of_load loaded with ⟨_, _, _, origin⟩
    obtain rfl := Except.ok.inj (readProgram_ring.symm.trans origin.read)
    obtain rfl := Option.some.inj (ofProgram?_ring.symm.trans origin.divided)
    rcases Engine.start_eq_ok_iff.mp started with ⟨grid, _, rfl⟩
    have declared : "A" ∈ program.registry.names := origin.mem_names_iff.mpr (by decide)
    have reachable := Reachable.started .fresh started
    rcases handshake loaded few reachable (Engine.snapshot_eq rfl) declared declared with
      ⟨counted, counts, _, number, _, _, done, _, found, _, known, _, _, total, _⟩
    exact ⟨program, _, _, counted, counts, number, loaded, few, reachable, Engine.snapshot_eq rfl,
      done, found, known, total torus⟩
  · rcases load_lonely with ⟨program, loaded, _⟩
    rcases loaded_of_load loaded with ⟨_, parts, validated, origin⟩
    obtain rfl := Except.ok.inj (readProgram_lonely.symm.trans origin.read)
    obtain rfl : lonelyParts = parts := Option.some.inj (Eq.trans rfl origin.divided)
    have same : Engine.program { program } = program := rfl
    rcases origin.exists_started same startable_lonely with
      ⟨engine, picture, started, _, taken, _⟩
    have reachable := Reachable.started .fresh started
    have declared : "A" ∈ program.registry.names := origin.mem_names_iff.mpr (by decide)
    have declared' : "B" ∈ program.registry.names := origin.mem_names_iff.mpr (by decide)
    have edge : program.boundary = .void := by
      have checked := origin.accepted.boundary ⟨"", none⟩
      rw [origin.compiled]
      exact (Option.some.inj (Prod.mk.inj checked).2).symm
    have closed : program.ClosedUnder Vec.neg := origin.closedUnder_neg trivial
    have few : program.offsets.length < countLimit := by
      rcases Neighborhood.length_moore 2 with ⟨listed, known, eight⟩
      obtain rfl := Except.ok.inj (known.symm.trans origin.offsets_eq)
      rw [eight]
      decide
    rcases handshake loaded few reachable taken declared declared' with
      ⟨counted, counts, counts', _, cells, cells', done, _, found, found', _, known, known', _,
        equal⟩
    exact ⟨program, engine, picture, counted, counts, counts', cells, cells', loaded, few,
      reachable, taken, done, found, found', known, known', edge, closed,
      equal (Or.inr edge) closed⟩

end Cellular
