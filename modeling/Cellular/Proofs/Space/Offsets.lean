import Cellular.Proofs.Outcome
import Cellular.Proofs.Space.Sorted
import Cellular.Space.Neighborhood

/-!
# What a neighbourhood describes

The offsets of a neighbourhood are the vectors that it describes: a rule along an axis
describes the vectors that lie on this axis at a distance it reaches, and a rule within a
distance on every axis describes the cube around the cell, without the cell. Every offset
has a coordinate for each axis, and none occurs twice.
-/

namespace Cellular

/-! ## Descriptions -/

/-- A vector on an axis, at a distance that is negative on the other side. -/
structure Vec.LiesAlong (rank axis : Nat) (distance : Int) (v : Vec) : Prop where
  length : v.length = rank
  coordinate : ∀ i < rank, v[i]? = some (if i = axis then distance else 0)

/-- A vector other than zero, none of whose coordinates is farther from zero than the
radius. -/
structure Vec.LiesAround (rank : Nat) (radius : Int) (v : Vec) : Prop where
  length : v.length = rank
  nonzero : ∃ c ∈ v, c ≠ 0
  bounded : ∀ c ∈ v, -radius ≤ c ∧ c ≤ radius

/-- The distances along an axis that a direction reaches. -/
def Direction.Reaches (magnitude : Int) : Direction → Int → Prop
  | plus, distance => distance = magnitude
  | minus, distance => distance = -magnitude
  | plusMinus, distance => distance = magnitude ∨ distance = -magnitude
  | within, distance => distance ≠ 0 ∧ -magnitude ≤ distance ∧ distance ≤ magnitude

/-- A rule speaks of an axis: by its name, or because it speaks of every axis. -/
def OffsetRule.Names (rule : OffsetRule) (axis : Nat) : Prop :=
  rule.axis.text = everyAxis ∨ axisNames[axis]? = some rule.axis.text

/-- A rule describes a vector. -/
def OffsetRule.Describes (rank : Nat) (rule : OffsetRule) (v : Vec) : Prop :=
  if rule.direction = .within ∧ rule.axis.text = everyAxis then
    v.LiesAround rank rule.magnitude
  else ∃ axis < rank, rule.Names axis ∧
    ∃ distance, rule.direction.Reaches rule.magnitude distance ∧ v.LiesAlong rank axis distance

/-- A neighbourhood describes a vector. -/
def Neighborhood.Describes (rank : Nat) (v : Vec) : Neighborhood → Prop
  | moore => v.LiesAround rank 1
  | vonNeumann => ∃ axis < rank, ∃ distance, (distance = 1 ∨ distance = -1) ∧
      v.LiesAlong rank axis distance
  | custom rules => ∃ rule ∈ rules, rule.Describes rank v

/-! ## Vectors -/

namespace Vec

theorem length_unit (rank : Nat) (axis distance : Int) :
    (unit rank axis distance).length = rank := by
  rw [unit, List.length_map, List.length_range]

theorem getElem?_unit {rank axis i : Nat} {distance : Int} (below : i < rank) :
    (unit rank axis distance)[i]? = some (if i = axis then distance else 0) := by
  rw [unit, List.getElem?_map, List.getElem?_range below, Option.map_some]
  exact congrArg some (if_congr Int.ofNat_inj rfl rfl)

theorem unit_eq_iff {rank axis : Nat} {distance : Int} {v : Vec} :
    v = unit rank axis distance ↔ v.LiesAlong rank axis distance := by
  constructor
  · rintro rfl
    exact ⟨length_unit rank axis distance, fun i below => getElem?_unit below⟩
  · rintro ⟨length, coordinate⟩
    apply List.ext_getElem?
    intro i
    by_cases below : i < rank
    · rw [coordinate i below, getElem?_unit below]
    · have above := Nat.le_of_not_lt below
      rw [List.getElem?_eq_none (by rwa [length]),
        List.getElem?_eq_none (by rwa [length_unit])]

theorem mem_segment {radius c : Int} : c ∈ segment radius ↔ -radius ≤ c ∧ c ≤ radius := by
  simp only [segment, List.mem_map, List.mem_range]
  constructor
  · rintro ⟨i, below, rfl⟩
    omega
  · rintro ⟨low, high⟩
    exact ⟨(c + radius).toNat, by omega, by omega⟩

theorem mem_hypercube {rank : Nat} {radius : Int} {v : Vec} :
    v ∈ hypercube rank radius ↔ v.length = rank ∧ ∀ c ∈ v, -radius ≤ c ∧ c ≤ radius := by
  induction rank generalizing v with
  | zero =>
      rw [hypercube, List.mem_singleton, List.length_eq_zero_iff]
      constructor
      · rintro rfl
        exact ⟨rfl, by simp⟩
      · exact And.left
  | succ rank ih =>
      simp only [hypercube, List.mem_flatMap, List.mem_map, ih, mem_segment]
      constructor
      · rintro ⟨a, bound, w, ⟨rfl, rest⟩, rfl⟩
        exact ⟨rfl, List.forall_mem_cons.mpr ⟨bound, rest⟩⟩
      · rintro ⟨length, bounded⟩
        rcases v with _ | ⟨a, w⟩
        · simp at length
        rcases List.forall_mem_cons.mp bounded with ⟨bound, rest⟩
        exact ⟨a, bound, w, ⟨Nat.succ.inj length, rest⟩, rfl⟩

theorem pairwise_segment (radius : Int) : (segment radius).Pairwise (· < ·) := by
  rw [segment, List.pairwise_map]
  apply List.pairwise_lt_range.imp
  intro i j before
  omega

/-- The vectors of a cube are listed in strictly increasing order. -/
theorem pairwise_hypercube (rank : Nat) (radius : Int) :
    (hypercube rank radius).Pairwise fun v w => v.le w = true ∧ v ≠ w := by
  induction rank with
  | zero => exact List.pairwise_singleton _ _
  | succ rank ih => exact increasing_flatMap (pairwise_segment radius) ih

private theorem foldl_max_le_iff (items : List Nat) (start most : Nat) :
    items.foldl max start ≤ most ↔ start ≤ most ∧ ∀ n ∈ items, n ≤ most := by
  induction items generalizing start with
  | nil => simp
  | cons n items ih =>
      rw [List.foldl_cons, ih, Nat.max_le, List.forall_mem_cons, and_assoc]

theorem chebyshev_le_iff {v : Vec} {most : Nat} :
    v.chebyshev ≤ most ↔ ∀ c ∈ v, c.natAbs ≤ most := by
  rw [chebyshev, foldl_max_le_iff]
  simp

theorem chebyshev_pos_iff {v : Vec} : 0 < v.chebyshev ↔ ∃ c ∈ v, c ≠ 0 := by
  rw [← Nat.not_le, chebyshev_le_iff]
  simp

theorem liesAlong_cons_zero {rank : Nat} {distance c : Int} {v : Vec} :
    LiesAlong (rank + 1) 0 distance (c :: v) ↔
      c = distance ∧ v.length = rank ∧ ∀ d ∈ v, d = 0 := by
  constructor
  · rintro ⟨length, coordinate⟩
    refine ⟨by simpa using coordinate 0 (Nat.succ_pos rank), Nat.succ.inj length, ?_⟩
    intro d member
    rcases List.mem_iff_getElem?.mp member with ⟨i, found⟩
    have below : i < rank := by
      rw [← Nat.succ.inj length]
      exact (List.getElem?_eq_some_iff.mp found).1
    simpa [found] using coordinate (i + 1) (Nat.succ_lt_succ below)
  · rintro ⟨rfl, rfl, zero⟩
    constructor
    · rfl
    · rintro (_ | i) below
      · simp
      · have bound : i < v.length := Nat.lt_of_succ_lt_succ below
        simpa [bound] using zero v[i] (List.getElem_mem bound)

theorem liesAlong_cons_succ {rank axis : Nat} {distance c : Int} {v : Vec} :
    LiesAlong (rank + 1) (axis + 1) distance (c :: v) ↔ c = 0 ∧ v.LiesAlong rank axis distance := by
  constructor
  · rintro ⟨length, coordinate⟩
    refine ⟨by simpa using coordinate 0 (Nat.succ_pos rank), Nat.succ.inj length, ?_⟩
    intro i below
    simpa using coordinate (i + 1) (Nat.succ_lt_succ below)
  · rintro ⟨rfl, length, coordinate⟩
    constructor
    · exact congrArg Nat.succ length
    · rintro (_ | i) below
      · simp
      · simpa using coordinate i (Nat.lt_of_succ_lt_succ below)

theorem manhattan_cons (c : Int) (v : Vec) : manhattan (c :: v) = c.natAbs + manhattan v :=
  rfl

private theorem manhattan_eq_zero_iff {v : Vec} : v.manhattan = 0 ↔ ∀ c ∈ v, c = 0 := by
  induction v with
  | nil => simp [manhattan]
  | cons c v ih =>
      rw [List.forall_mem_cons, ← ih, manhattan_cons]
      omega

/-- The distances along the axes add up to one exactly if a single one of them is not zero
and that one is one. -/
theorem manhattan_eq_one_iff {rank : Nat} {v : Vec} (length : v.length = rank) :
    v.manhattan = 1 ↔
      ∃ axis < rank, ∃ distance, (distance = 1 ∨ distance = -1) ∧
        v.LiesAlong rank axis distance := by
  induction v generalizing rank with
  | nil =>
      subst length
      simp [manhattan]
  | cons c v ih =>
      obtain rfl := length
      rw [manhattan_cons]
      constructor
      · intro total
        by_cases zero : c = 0
        · rcases (ih rfl).mp (by omega) with ⟨axis, below, distance, one, along⟩
          exact ⟨axis + 1, Nat.succ_lt_succ below, distance, one,
            liesAlong_cons_succ.mpr ⟨zero, along⟩⟩
        · have rest : manhattan v = 0 := by omega
          exact ⟨0, Nat.succ_pos _, c, by omega,
            liesAlong_cons_zero.mpr ⟨rfl, rfl, manhattan_eq_zero_iff.mp rest⟩⟩
      · rintro ⟨_ | axis, below, distance, one, along⟩
        · rcases liesAlong_cons_zero.mp along with ⟨rfl, _, zero⟩
          have rest := manhattan_eq_zero_iff.mpr zero
          omega
        · rcases liesAlong_cons_succ.mp along with ⟨rfl, others⟩
          have rest := (ih rfl).mpr ⟨axis, Nat.lt_of_succ_lt_succ below, distance, one, others⟩
          omega

end Vec

/-! ## Rules -/

theorem Direction.mem_along {rank axis : Nat} {magnitude : Int} {direction : Direction} {v : Vec} :
    v ∈ direction.along rank axis magnitude ↔
      ∃ distance, direction.Reaches magnitude distance ∧ v.LiesAlong rank axis distance := by
  cases direction with
  | plus =>
      simp only [along, List.mem_singleton, Reaches, Vec.unit_eq_iff, exists_eq_left]
  | minus =>
      simp only [along, List.mem_singleton, Reaches, Vec.unit_eq_iff, exists_eq_left]
  | plusMinus =>
      simp only [along, List.mem_cons, List.not_mem_nil, or_false, Vec.unit_eq_iff, Reaches,
        or_and_right, exists_or, exists_eq_left]
  | within =>
      simp only [along, List.mem_flatMap, List.mem_range, List.mem_cons, List.not_mem_nil,
        or_false, Vec.unit_eq_iff, Reaches]
      constructor
      · rintro ⟨k, below, along | along⟩
        · exact ⟨k + 1, by omega, along⟩
        · exact ⟨-(k + 1), by omega, along⟩
      · rintro ⟨distance, ⟨nonzero, low, high⟩, along⟩
        rcases Int.lt_or_gt_of_ne nonzero with negative | positive
        · refine ⟨(-distance - 1).toNat, by omega, Or.inr ?_⟩
          have same : -(((-distance - 1).toNat : Int) + 1) = distance := by omega
          rwa [same]
        · refine ⟨(distance - 1).toNat, by omega, Or.inl ?_⟩
          have same : ((distance - 1).toNat : Int) + 1 = distance := by omega
          rwa [same]

theorem axisIndex?_eq_some_iff {name : String} {axis : Nat} :
    axisIndex? name = some axis ↔ axisNames[axis]? = some name := by
  have distinct : axisNames.Nodup := by decide
  rw [axisIndex?, List.idxOf?_eq_some_iff, List.getElem?_eq_some_iff]
  constructor
  · rintro ⟨bound, found, _⟩
    exact ⟨bound, found⟩
  · rintro ⟨bound, rfl⟩
    refine ⟨bound, rfl, ?_⟩
    intro j before same
    exact absurd ((List.getElem_inj distinct).mp same) (Nat.ne_of_lt before)

namespace OffsetRule

/-- The axes of a rule are those that it names, if they exist. -/
theorem mem_axes_iff {rank : Nat} {rule : OffsetRule} {axes : List Nat}
    (known : rule.axes rank = .ok axes) (inside : ∀ axis ∈ axes, axis < rank) {axis : Nat} :
    axis ∈ axes ↔ axis < rank ∧ rule.Names axis := by
  rw [OffsetRule.axes] at known
  split at known
  · rename_i every
    obtain rfl := Except.ok.inj known
    rw [List.mem_range]
    exact ⟨fun below => ⟨below, Or.inl every⟩, And.left⟩
  · rename_i single
    split at known
    · rename_i named isIndex
      obtain rfl := Except.ok.inj known
      rw [List.mem_singleton, Names, or_iff_right single, ← axisIndex?_eq_some_iff, isIndex,
        Option.some.injEq]
      constructor
      · rintro rfl
        exact ⟨inside axis List.mem_cons_self, rfl⟩
      · exact fun named => named.2.symm
    · exact absurd known (by simp)

/-- The offsets of a rule whose axes exist are the vectors that it describes. -/
theorem mem_offsets_iff {rank : Nat} {rule : OffsetRule} {listed : List Vec}
    (known : rule.offsets rank = .ok listed)
    (inside : ∀ axes, rule.axes rank = .ok axes → ∀ axis ∈ axes, axis < rank) {v : Vec} :
    v ∈ listed ↔ rule.Describes rank v := by
  rw [offsets] at known
  rcases bind_eq_ok_iff.mp known with ⟨axes, named, known⟩
  rw [Describes]
  by_cases cube : rule.direction = .within ∧ rule.axis.text = everyAxis
  · rw [if_pos (by simpa using cube)] at known
    obtain rfl := pure_eq_ok_iff.mp known
    rw [if_pos cube, List.mem_filter, Vec.mem_hypercube, decide_eq_true_eq, Vec.chebyshev_pos_iff]
    constructor
    · rintro ⟨⟨length, bounded⟩, nonzero⟩
      exact ⟨length, nonzero, bounded⟩
    · rintro ⟨length, nonzero, bounded⟩
      exact ⟨⟨length, bounded⟩, nonzero⟩
  · rw [if_neg (by simpa using cube)] at known
    obtain rfl := pure_eq_ok_iff.mp known
    simp only [if_neg cube, List.mem_flatMap, Direction.mem_along,
      mem_axes_iff named (inside axes named), and_assoc]

end OffsetRule

/-! ## Neighbourhoods -/

private theorem mem_moore_iff {rank : Nat} {v : Vec} :
    v ∈ (Vec.hypercube rank 1).filter (fun v => v.chebyshev == 1) ↔ v.LiesAround rank 1 := by
  rw [List.mem_filter, Vec.mem_hypercube, beq_iff_eq]
  constructor
  · rintro ⟨⟨length, bounded⟩, one⟩
    exact ⟨length, Vec.chebyshev_pos_iff.mp (by omega), bounded⟩
  · rintro ⟨length, nonzero, bounded⟩
    have most : v.chebyshev ≤ 1 := by
      rw [Vec.chebyshev_le_iff]
      intro c member
      have bound := bounded c member
      omega
    have least := Vec.chebyshev_pos_iff.mpr nonzero
    exact ⟨⟨length, bounded⟩, by omega⟩

private theorem mem_vonNeumann_iff {rank : Nat} {v : Vec} :
    v ∈ (Vec.hypercube rank 1).filter (fun v => v.manhattan == 1) ↔
      Neighborhood.vonNeumann.Describes rank v := by
  rw [List.mem_filter, Vec.mem_hypercube, beq_iff_eq]
  constructor
  · rintro ⟨⟨length, bounded⟩, one⟩
    exact (Vec.manhattan_eq_one_iff length).mp one
  · rintro ⟨axis, below, distance, one, along⟩
    refine ⟨⟨along.length, ?_⟩,
      (Vec.manhattan_eq_one_iff along.length).mpr ⟨axis, below, distance, one, along⟩⟩
    intro c member
    rcases List.mem_iff_getElem?.mp member with ⟨i, found⟩
    have bound : i < rank := by
      rw [← along.length]
      exact (List.getElem?_eq_some_iff.mp found).1
    have known := along.coordinate i bound
    rw [found, Option.some.injEq] at known
    split at known <;> omega

private theorem mem_flatten_iff {rank : Nat} {rules : List OffsetRule} {lists : List (List Vec)}
    (all : List.Forall₂ (fun rule listed => OffsetRule.offsets rank rule = .ok listed) rules lists)
    (inside : ∀ rule ∈ rules, ∀ axes, OffsetRule.axes rank rule = .ok axes →
      ∀ axis ∈ axes, axis < rank) {v : Vec} :
    v ∈ lists.flatten ↔ ∃ rule ∈ rules, rule.Describes rank v := by
  induction all with
  | nil => simp
  | cons first _ ih =>
      rcases List.forall_mem_cons.mp inside with ⟨head, others⟩
      simp only [List.flatten_cons, List.mem_append, OffsetRule.mem_offsets_iff first head,
        ih others, List.mem_cons, exists_eq_or_imp]

namespace Neighborhood

/-- The offsets of a neighbourhood whose axes exist are the vectors that it describes. -/
theorem mem_offsets_iff {rank : Nat} {shape : Neighborhood} {listed : List Vec}
    (known : shape.offsets rank = .ok listed)
    (inside : ∀ rules, shape = .custom rules → ∀ rule ∈ rules, ∀ axes,
      OffsetRule.axes rank rule = .ok axes → ∀ axis ∈ axes, axis < rank) {v : Vec} :
    v ∈ listed ↔ shape.Describes rank v := by
  cases shape with
  | moore =>
      obtain rfl := Except.ok.inj known
      rw [mem_sortedSet]
      exact mem_moore_iff
  | vonNeumann =>
      obtain rfl := Except.ok.inj known
      rw [mem_sortedSet]
      exact mem_vonNeumann_iff
  | custom rules =>
      rcases bind_eq_ok_iff.mp known with ⟨lists, all, known⟩
      obtain rfl := pure_eq_ok_iff.mp known
      rw [mem_sortedSet]
      exact mem_flatten_iff (mapM_eq_ok_iff.mp all) (inside rules rfl)

/-- The offsets of a neighbourhood are listed in strictly increasing order. -/
theorem pairwise_offsets {rank : Nat} {shape : Neighborhood} {listed : List Vec}
    (known : shape.offsets rank = .ok listed) :
    listed.Pairwise fun v w => v.le w = true ∧ v ≠ w := by
  cases shape with
  | moore | vonNeumann =>
      obtain rfl := Except.ok.inj known
      exact Vec.increasing_sortedSet _
  | custom rules =>
      rcases bind_eq_ok_iff.mp known with ⟨lists, _, known⟩
      obtain rfl := pure_eq_ok_iff.mp known
      exact Vec.increasing_sortedSet _

theorem nodup_offsets {rank : Nat} {shape : Neighborhood} {listed : List Vec}
    (known : shape.offsets rank = .ok listed) : listed.Nodup :=
  (pairwise_offsets known).imp And.right

theorem length_of_describes {rank : Nat} {shape : Neighborhood} {v : Vec}
    (described : shape.Describes rank v) : v.length = rank := by
  cases shape with
  | moore => exact described.length
  | vonNeumann =>
      rcases described with ⟨_, _, _, _, along⟩
      exact along.length
  | custom rules =>
      rcases described with ⟨rule, _, described⟩
      rw [OffsetRule.Describes] at described
      split at described
      · exact described.length
      · rcases described with ⟨_, _, _, _, _, along⟩
        exact along.length

end Neighborhood

end Cellular
