import Cellular.Proofs.Validation.Shape

/-!
# Neighbourhoods are canonical

The offsets of a neighbourhood are listed in strictly increasing order, so that the list is
determined by the vectors that the neighbourhood describes: neither the order of its rules
nor their repetition matters, and two neighbourhoods that describe the same vectors have the
same offsets. Their number is that of the vectors described, which for the cube around a cell
and for the stretch of an axis around it has a closed form.
-/

namespace Cellular

/-! ## Increasing lists of vectors -/

namespace Vec

/-- Of the vectors of a set there is only one increasing list. -/
theorem eq_of_mem_iff {first second : List Vec}
    (increasing : first.Pairwise fun v w => v.le w = true ∧ v ≠ w)
    (increasing' : second.Pairwise fun v w => v.le w = true ∧ v ≠ w)
    (same : ∀ v, v ∈ first ↔ v ∈ second) : first = second := by
  have permuted : first.Perm second :=
    (List.perm_ext_iff_of_nodup (increasing.imp And.right) (increasing'.imp And.right)).mpr same
  apply permuted.eq_of_pairwise _ increasing increasing'
  intro v w _ _ before after
  exact le_antisymm v w before.1 after.1

/-! ## Counting vectors -/

theorem length_segment (n : Nat) : (segment n).length = 2 * n + 1 := by
  rw [segment, List.length_map, List.length_range]
  omega

/-- Each coordinate of a vector of a cube can be chosen freely. -/
theorem length_hypercube (rank n : Nat) : (hypercube rank n).length = (2 * n + 1) ^ rank := by
  induction rank with
  | zero => rfl
  | succ rank ih =>
      simp only [hypercube, List.length_flatMap, List.length_map, ih]
      rw [List.map_const', List.sum_replicate_nat, length_segment, Nat.pow_succ, Nat.mul_comm]

end Vec

/-- A list without repeats loses one item when this item is filtered out. -/
private theorem length_filter_of_single {α : Type} [BEq α] [LawfulBEq α] {items : List α}
    (distinct : items.Nodup) {a : α} (member : a ∈ items) {p : α → Bool}
    (only : ∀ b ∈ items, p b = true ↔ b ≠ a) : (items.filter p).length = items.length - 1 := by
  have erased : items.filter p = items.erase a := by
    rw [distinct.erase_eq_filter]
    apply List.filter_congr
    intro b inside
    rw [Bool.eq_iff_iff, only b inside, bne_iff_ne]
  rw [erased, List.length_erase_of_mem member]

theorem Direction.ne_zero_of_reaches {direction : Direction} {magnitude distance : Int}
    (positive : 1 ≤ magnitude) (reached : direction.Reaches magnitude distance) :
    distance ≠ 0 := by
  cases direction <;> simp only [Reaches] at reached <;> omega

namespace Neighborhood

/-! ## One list for all descriptions -/

/-- Neighbourhoods that make sense have the same offsets if they describe the same vectors. -/
theorem offsets_congr {rank : Nat} {first second : Neighborhood} (sensible : first.Sensible rank)
    (sensible' : second.Sensible rank)
    (same : ∀ v, first.Describes rank v ↔ second.Describes rank v) :
    first.offsets rank = second.offsets rank := by
  rcases exists_offsets sensible with ⟨listed, known, member⟩
  rcases exists_offsets sensible' with ⟨listed', known', member'⟩
  have equal : listed = listed' := by
    apply Vec.eq_of_mem_iff (pairwise_offsets known) (pairwise_offsets known')
    intro v
    rw [member, member', same]
  rw [known, known', equal]

/-- A neighbourhood has as many offsets as any list of the vectors that it describes, if no
vector occurs twice in it. -/
theorem exists_offsets_length {rank : Nat} {shape : Neighborhood} (sensible : shape.Sensible rank)
    {items : List Vec} (distinct : items.Nodup) (same : ∀ v, v ∈ items ↔ shape.Describes rank v) :
    ∃ listed, shape.offsets rank = .ok listed ∧ listed.length = items.length := by
  rcases exists_offsets sensible with ⟨listed, known, member⟩
  have permuted : listed.Perm items := by
    apply (List.perm_ext_iff_of_nodup (nodup_offsets known) distinct).mpr
    intro v
    rw [member, same]
  exact ⟨listed, known, permuted.length_eq⟩

/-- No neighbourhood that makes sense describes the cell itself. -/
theorem nonzero_of_describes {rank : Nat} {shape : Neighborhood} (sensible : shape.Sensible rank)
    {v : Vec} (described : shape.Describes rank v) : ∃ c ∈ v, c ≠ 0 := by
  have along : ∀ axis < rank, ∀ distance, distance ≠ 0 → v.LiesAlong rank axis distance →
      ∃ c ∈ v, c ≠ 0 := by
    intro axis below distance nonzero lies
    have found := lies.coordinate axis below
    rw [if_pos rfl] at found
    exact ⟨distance, List.mem_of_getElem? found, nonzero⟩
  cases shape with
  | moore => exact described.nonzero
  | vonNeumann =>
      rcases described with ⟨axis, below, distance, one, lies⟩
      exact along axis below distance (by omega) lies
  | custom rules =>
      rcases described with ⟨rule, member, described⟩
      have positive := (sensible rule member).2
      rw [OffsetRule.Describes] at described
      split at described
      · exact described.nonzero
      · rcases described with ⟨axis, below, _, distance, reached, lies⟩
        exact along axis below distance (Direction.ne_zero_of_reaches positive reached) lies

/-! ## Shapes and rules -/

theorem describes_singleton {rank : Nat} {rule : OffsetRule} {v : Vec} :
    (custom [rule]).Describes rank v ↔ rule.Describes rank v := by
  simp only [Describes, List.mem_singleton, exists_eq_left]

section EveryAxis

variable {every : Name} (all : every.text = everyAxis)

include all

/-- Within a distance on every axis lies the cube without its centre. -/
theorem describes_cube {rank : Nat} {radius : Int} {v : Vec} :
    (custom [⟨every, .within, radius⟩]).Describes rank v ↔ v.LiesAround rank radius := by
  rw [describes_singleton, OffsetRule.Describes, if_pos ⟨rfl, all⟩]

/-- One step on every axis leads to the nearest cells. -/
theorem describes_cross {rank : Nat} {v : Vec} :
    (custom [⟨every, .plusMinus, 1⟩]).Describes rank v ↔ vonNeumann.Describes rank v := by
  rw [describes_singleton, OffsetRule.Describes, if_neg (by simp), Describes]
  simp only [OffsetRule.Names, all, true_or, true_and, Direction.Reaches]

theorem moore_eq_cube (rank : Nat) :
    moore.offsets rank = (custom [⟨every, .within, 1⟩]).offsets rank := by
  have sensible : moore.Sensible rank := trivial
  apply offsets_congr sensible
  · exact List.forall_mem_singleton.mpr ⟨Or.inl all, Int.le_refl 1⟩
  · intro v
    rw [describes_cube all]
    exact Iff.rfl

theorem vonNeumann_eq_cross (rank : Nat) :
    vonNeumann.offsets rank = (custom [⟨every, .plusMinus, 1⟩]).offsets rank := by
  have sensible : vonNeumann.Sensible rank := trivial
  apply offsets_congr sensible
  · exact List.forall_mem_singleton.mpr ⟨Or.inl all, Int.le_refl 1⟩
  · intro v
    exact (describes_cross all).symm

/-- The cube around a cell has a vector for each of its cells but one. -/
theorem length_cube (rank : Nat) {n : Nat} (positive : 1 ≤ n) :
    ∃ listed, (custom [⟨every, .within, n⟩]).offsets rank = .ok listed ∧
      listed.length = (2 * n + 1) ^ rank - 1 := by
  have distinct : (Vec.hypercube rank n).Nodup := (Vec.pairwise_hypercube rank n).imp And.right
  have centre : List.replicate rank 0 ∈ Vec.hypercube rank n := by
    rw [Vec.mem_hypercube]
    refine ⟨List.length_replicate, ?_⟩
    intro c member
    rw [(List.mem_replicate.mp member).2]
    omega
  have only : ∀ v ∈ Vec.hypercube rank n,
      decide (0 < v.chebyshev) = true ↔ v ≠ List.replicate rank 0 := by
    intro v inside
    rw [decide_eq_true_eq, Vec.chebyshev_pos_iff, ne_eq, List.eq_replicate_iff,
      and_iff_right (Vec.mem_hypercube.mp inside).1]
    push Not
    rfl
  have counted := length_filter_of_single distinct centre only
  rw [Vec.length_hypercube] at counted
  rw [← counted]
  apply exists_offsets_length
  · exact List.forall_mem_singleton.mpr ⟨Or.inl all, Int.ofNat_le.mpr positive⟩
  · exact distinct.filter _
  · intro v
    rw [describes_cube all, List.mem_filter, Vec.mem_hypercube, decide_eq_true_eq,
      Vec.chebyshev_pos_iff]
    constructor
    · rintro ⟨⟨length, bounded⟩, nonzero⟩
      exact ⟨length, nonzero, bounded⟩
    · rintro ⟨length, nonzero, bounded⟩
      exact ⟨⟨length, bounded⟩, nonzero⟩

end EveryAxis

/-- All cells around a cell are three in each direction, without the cell itself. -/
theorem length_moore (rank : Nat) :
    ∃ listed, moore.offsets rank = .ok listed ∧ listed.length = 3 ^ rank - 1 := by
  have all : Name.text ⟨everyAxis, none⟩ = everyAxis := rfl
  rw [moore_eq_cube all]
  exact length_cube all rank (Nat.le_refl 1)

/-! ## A stretch of one axis -/

/-- Along one axis of a space a rule describes the vectors on this axis. -/
theorem describes_stretch {rank index : Nat} {axis : Name} {radius : Int} {v : Vec}
    (below : index < rank) (known : axisIndex? axis.text = some index) :
    (custom [⟨axis, .within, radius⟩]).Describes rank v ↔
      ∃ distance, distance ≠ 0 ∧ -radius ≤ distance ∧ distance ≤ radius ∧
        v.LiesAlong rank index distance := by
  have named := axisIndex?_eq_some_iff.mp known
  have single : axis.text ≠ everyAxis := by
    intro every
    have none_such : axisIndex? everyAxis = none := by decide
    rw [every, none_such] at known
    exact absurd known nofun
  have names : ∀ other, OffsetRule.Names ⟨axis, .within, radius⟩ other ↔ other = index := by
    intro other
    rw [OffsetRule.Names, or_iff_right single, ← axisIndex?_eq_some_iff, known,
      Option.some.injEq]
    exact eq_comm
  rw [describes_singleton, OffsetRule.Describes, if_neg fun both => single both.2]
  simp only [names, Direction.Reaches, and_assoc]
  constructor
  · rintro ⟨_, _, rfl, lies⟩
    exact lies
  · exact fun lies => ⟨index, below, rfl, lies⟩

/-- Along one axis lie two cells at each distance. -/
theorem length_stretch {rank : Nat} {axis : Name} (inside : axis.text ∈ axisNames.take rank)
    {n : Nat} (positive : 1 ≤ n) :
    ∃ listed, (custom [⟨axis, .within, n⟩]).offsets rank = .ok listed ∧
      listed.length = 2 * n := by
  rcases mem_take_axisNames_iff.mp inside with ⟨index, below, known⟩
  have distinct : (Vec.segment n).Nodup := (Vec.pairwise_segment n).imp Int.ne_of_lt
  have centre : (0 : Int) ∈ Vec.segment n := Vec.mem_segment.mpr (by omega)
  have counted := length_filter_of_single distinct centre fun c _ => bne_iff_ne
  rw [Vec.length_segment, Nat.add_sub_cancel] at counted
  rw [← counted, ← List.length_map fun c => Vec.unit rank index c]
  apply exists_offsets_length
  · exact List.forall_mem_singleton.mpr ⟨Or.inr inside, Int.ofNat_le.mpr positive⟩
  · apply (distinct.filter _).map
    intro c d same
    have lies := (Vec.unit_eq_iff.mp same).coordinate index below
    rw [(Vec.unit_eq_iff.mp rfl).coordinate index below, if_pos rfl, if_pos rfl] at lies
    exact Option.some.inj lies
  · intro v
    rw [describes_stretch below known]
    constructor
    · intro occurs
      rcases List.mem_map.mp occurs with ⟨c, member, rfl⟩
      rcases List.mem_filter.mp member with ⟨bounded, nonzero⟩
      rcases Vec.mem_segment.mp bounded with ⟨low, high⟩
      exact ⟨c, bne_iff_ne.mp nonzero, low, high, Vec.unit_eq_iff.mp rfl⟩
    · rintro ⟨c, nonzero, low, high, lies⟩
      have bounded := Vec.mem_segment.mpr ⟨low, high⟩
      exact List.mem_map.mpr ⟨c, List.mem_filter.mpr ⟨bounded, bne_iff_ne.mpr nonzero⟩,
        (Vec.unit_eq_iff.mpr lies).symm⟩

end Neighborhood

/-! ## The canonical form -/

/-- The offsets of sensible rules are an increasing list of the vectors that the rules describe,
and of nothing else. The named shapes are shapes of rules, and the size of a cube and of a
stretch is known. -/
theorem Neighborhood.offsets_canonical :
    (∀ (rank : Nat) (rules : List OffsetRule),
      (∀ rule ∈ rules, rule.axis.SpeaksOf rank ∧ 1 ≤ rule.magnitude) →
        ∃ listed, (custom rules).offsets rank = .ok listed ∧
          listed.Pairwise (· < ·) ∧
          (∀ v ∈ listed, v.length = rank ∧ ∃ c ∈ v, c ≠ 0) ∧
          (∀ v, v ∈ listed ↔ ∃ rule ∈ rules, rule.Describes rank v) ∧
          -- order and repetition of rules do not matter
          (∀ others, (∀ rule, rule ∈ others ↔ rule ∈ rules) →
            (custom others).offsets rank = .ok listed) ∧
          -- validation goes on with these offsets
          ∀ key, ∃ problems, checkNeighborhood rank key (.custom rules) =
            .ok (problems, some listed)) ∧
    ∀ (rank : Nat) (axis : Name),
      (axis.text = everyAxis →
        moore.offsets rank = (custom [⟨axis, .within, 1⟩]).offsets rank ∧
        vonNeumann.offsets rank = (custom [⟨axis, .plusMinus, 1⟩]).offsets rank ∧
        ∀ n : Nat, 1 ≤ n → ∃ listed, (custom [⟨axis, .within, n⟩]).offsets rank = .ok listed ∧
          listed.length = (2 * n + 1) ^ rank - 1) ∧
      (axis.text ∈ axisNames.take rank →
        ∀ n : Nat, 1 ≤ n → ∃ listed, (custom [⟨axis, .within, n⟩]).offsets rank = .ok listed ∧
          listed.length = 2 * n) := by
  constructor
  · intro rank rules each
    have sensible : (custom rules).Sensible rank := each
    rcases exists_offsets sensible with ⟨listed, known, member⟩
    refine ⟨listed, known, ?_, ?_, member, ?_, ?_⟩
    · exact (pairwise_offsets known).imp fun before => Vec.lt_of_le_of_ne before.1 before.2
    · intro v inside
      have described := (member v).mp inside
      exact ⟨length_of_describes described, nonzero_of_describes sensible described⟩
    · intro others same
      have sensible' : (custom others).Sensible rank := fun rule occurs =>
        each rule ((same rule).mp occurs)
      rw [← known]
      apply offsets_congr sensible' sensible
      intro v
      simp only [Describes, same]
    · intro key
      refine ⟨if listed.isEmpty then [.emptyNeighborhood key] else [], ?_⟩
      rw [checkNeighborhood, problems_eq_nil_iff.mpr sensible, known]
      rfl
  · intro rank axis
    constructor
    · intro every
      exact ⟨moore_eq_cube every rank, vonNeumann_eq_cross every rank,
        fun n positive => length_cube every rank positive⟩
    · intro inside n positive
      exact length_stretch inside positive

/-- In the plane, two rules of which one is repeated. -/
def planeRules : List OffsetRule :=
  [⟨⟨"y", none⟩, .plusMinus, 2⟩, ⟨⟨"x", none⟩, .minus, 1⟩, ⟨⟨"y", none⟩, .plusMinus, 2⟩]

theorem Neighborhood.offsets_canonical_plane :
    (∀ rule ∈ planeRules, rule.axis.SpeaksOf 2 ∧ 1 ≤ rule.magnitude) ∧
      (∃ listed, (custom planeRules).offsets 2 = .ok listed ∧
        (custom planeRules.reverse).offsets 2 = .ok listed ∧
        listed.Pairwise (· < ·) ∧ [0, 2] ∈ listed) ∧
      (∃ listed, (custom [⟨⟨"*", none⟩, .within, 2⟩]).offsets 2 = .ok listed ∧
        listed.length = 24) ∧
      ∃ listed, (custom [⟨⟨"y", none⟩, .within, 3⟩]).offsets 2 = .ok listed ∧
        listed.length = 6 := by
  have sensible : ∀ rule ∈ planeRules, rule.axis.SpeaksOf 2 ∧ 1 ≤ rule.magnitude := by
    intro rule member
    rw [planeRules, List.mem_cons, List.mem_cons, List.mem_singleton] at member
    rcases member with rfl | rfl | rfl <;> exact ⟨Or.inr (by decide), by decide⟩
  have above : OffsetRule.Describes 2 ⟨⟨"y", none⟩, .plusMinus, 2⟩ [0, 2] := by
    rw [OffsetRule.Describes, if_neg (by simp)]
    exact ⟨1, by decide, Or.inr rfl, 2, Or.inl rfl, Vec.unit_eq_iff.mp rfl⟩
  rcases offsets_canonical.1 2 planeRules sensible with
    ⟨listed, known, increasing, _, member, unordered, _⟩
  refine ⟨sensible, ⟨listed, known, ?_, increasing, ?_⟩, ?_, ?_⟩
  · exact unordered _ fun rule => List.mem_reverse
  · exact (member _).mpr ⟨_, List.mem_cons_self, above⟩
  · exact ((offsets_canonical.2 2 ⟨"*", none⟩).1 rfl).2.2 2 (by decide)
  · exact (offsets_canonical.2 2 ⟨"y", none⟩).2 (by decide) 3 (by decide)

end Cellular
