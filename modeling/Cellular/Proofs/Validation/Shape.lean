import Cellular.Proofs.Space.Offsets
import Cellular.Validation.Basic
import Mathlib.Data.Set.Card

/-!
# Sensible spaces and neighbourhoods

A size or an offset rule makes sense if it speaks of axes that exist and its number is
positive. The checks of environments and neighbourhoods find a problem exactly where this
is not so. A neighbourhood that makes sense has offsets, and there are as many of them as
it describes vectors.
-/

namespace Cellular

/-! ## Axes -/

/-- A name speaks of axes of a space: of every axis, or of one of the first axes. -/
def Name.SpeaksOf (rank : Nat) (axis : Name) : Prop :=
  axis.text = everyAxis ∨ axis.text ∈ axisNames.take rank

theorem mem_take_axisNames_iff {rank : Nat} {name : String} :
    name ∈ axisNames.take rank ↔ ∃ axis < rank, axisIndex? name = some axis := by
  simp only [List.mem_iff_getElem?, List.getElem?_take, axisIndex?_eq_some_iff]
  constructor
  · rintro ⟨axis, found⟩
    split at found
    · rename_i below
      exact ⟨axis, below, found⟩
    · exact absurd found nofun
  · rintro ⟨axis, below, found⟩
    exact ⟨axis, by rw [if_pos below, found]⟩

theorem isSome_axesNamed_iff {rank : Nat} {axis : Name} :
    (axesNamed rank axis).isSome = true ↔ axis.SpeaksOf rank := by
  rw [axesNamed, Name.SpeaksOf, mem_take_axisNames_iff]
  by_cases every : axis.text = everyAxis
  · simp [every]
  · cases axisIndex? axis.text <;> simp [every]

/-! ## Environments -/

/-- Every size of an environment is positive and belongs to axes that exist. -/
def Environment.Sensible (space : Environment) : Prop :=
  ∀ size ∈ space.sizes, size.1.SpeaksOf space.rank ∧ 1 ≤ size.2

private theorem sizeProblem_eq_nil_iff {rank : Nat} {axis : Name} {size : Int} :
    Environment.sizeProblem rank axis size = [] ↔ axis.SpeaksOf rank ∧ 1 ≤ size := by
  rw [Environment.sizeProblem, ← isSome_axesNamed_iff]
  cases axesNamed rank axis <;> simp

/-- An environment has no problems exactly if it makes sense. -/
theorem Environment.problems_eq_nil_iff {space : Environment} :
    space.problems = [] ↔ space.Sensible := by
  simp only [problems, List.flatMap_eq_nil_iff, sizeProblem_eq_nil_iff]
  exact Iff.rfl

/-! ## Neighbourhoods -/

/-- Every rule of a neighbourhood has a positive magnitude and speaks of axes that exist. -/
def Neighborhood.Sensible (rank : Nat) : Neighborhood → Prop
  | moore | vonNeumann => True
  | custom rules => ∀ rule ∈ rules, rule.axis.SpeaksOf rank ∧ 1 ≤ rule.magnitude

private theorem ruleProblems_eq_nil_iff {rank : Nat} {rule : OffsetRule} :
    rule.problems rank = [] ↔ rule.axis.SpeaksOf rank ∧ 1 ≤ rule.magnitude := by
  rw [OffsetRule.problems, ← isSome_axesNamed_iff]
  cases axesNamed rank rule.axis <;> simp

/-- A neighbourhood has no problems exactly if it makes sense. -/
theorem Neighborhood.problems_eq_nil_iff {rank : Nat} {shape : Neighborhood} :
    shape.problems rank = [] ↔ shape.Sensible rank := by
  cases shape with
  | custom rules =>
      simp only [problems, List.flatMap_eq_nil_iff, ruleProblems_eq_nil_iff, Sensible]
  | _ => exact ⟨fun _ => trivial, fun _ => rfl⟩

/-- A rule that speaks of axes that exist has no others. -/
theorem OffsetRule.exists_axes {rank : Nat} {rule : OffsetRule}
    (speaks : rule.axis.SpeaksOf rank) :
    ∃ axes, rule.axes rank = .ok axes ∧ ∀ axis ∈ axes, axis < rank := by
  rw [axes]
  by_cases every : rule.axis.text = everyAxis
  · exact ⟨List.range rank, if_pos every, fun axis member => List.mem_range.mp member⟩
  · rcases mem_take_axisNames_iff.mp (speaks.resolve_left every) with ⟨axis, below, known⟩
    rw [if_neg every, known]
    refine ⟨[axis], rfl, ?_⟩
    intro other member
    rwa [List.mem_singleton.mp member]

theorem OffsetRule.exists_offsets {rank : Nat} {rule : OffsetRule}
    (speaks : rule.axis.SpeaksOf rank) : ∃ listed, rule.offsets rank = .ok listed := by
  rcases exists_axes speaks with ⟨axes, known, _⟩
  rw [offsets, known]
  simp only [bind, Except.bind]
  split <;> exact ⟨_, rfl⟩

namespace Neighborhood

/-- A neighbourhood that makes sense has offsets: the vectors that it describes. -/
theorem exists_offsets {rank : Nat} {shape : Neighborhood} (sensible : shape.Sensible rank) :
    ∃ listed, shape.offsets rank = .ok listed ∧
      ∀ v, v ∈ listed ↔ shape.Describes rank v := by
  have listed : ∃ listed, shape.offsets rank = .ok listed := by
    cases shape with
    | moore | vonNeumann => exact ⟨_, rfl⟩
    | custom rules =>
        rcases exists_mapM_eq_ok fun rule member =>
          OffsetRule.exists_offsets (sensible rule member).1 with ⟨lists, all⟩
        rw [offsets, all]
        exact ⟨_, rfl⟩
  rcases listed with ⟨listed, known⟩
  refine ⟨listed, known, fun v => mem_offsets_iff known ?_⟩
  rintro rules rfl rule member axes named
  rcases OffsetRule.exists_axes (sensible rule member).1 with ⟨own, named', inside⟩
  obtain rfl := Except.ok.inj (named.symm.trans named')
  exact inside

/-- There are as many offsets as vectors that the neighbourhood describes. -/
theorem ncard_describes {rank : Nat} {shape : Neighborhood} {listed : List Vec}
    (known : shape.offsets rank = .ok listed)
    (member : ∀ v, v ∈ listed ↔ shape.Describes rank v) :
    Set.ncard {v | shape.Describes rank v} = listed.length := by
  have same : {v | shape.Describes rank v} = (listed.toFinset : Set Vec) := by
    ext v
    simp only [Set.mem_ofPred_eq, List.coe_toFinset, member]
  rw [same, Set.ncard_coe_finset, List.toFinset_card_of_nodup (nodup_offsets known)]

end Neighborhood

private theorem exists_liesAlong {rank axis : Nat} (distance : Int) :
    ∃ v : Vec, v.LiesAlong rank axis distance :=
  ⟨_, Vec.unit_eq_iff.mp rfl⟩

private theorem exists_liesAround {rank : Nat} (spacious : 1 ≤ rank) {radius : Int}
    (positive : 1 ≤ radius) : ∃ v : Vec, v.LiesAround rank radius := by
  refine ⟨List.replicate rank 1, List.length_replicate, ⟨1, ?_, by omega⟩, ?_⟩
  · exact List.mem_replicate.mpr ⟨by omega, rfl⟩
  · intro c member
    rw [(List.mem_replicate.mp member).2]
    omega

private theorem exists_reaches {direction : Direction} {magnitude : Int}
    (positive : 1 ≤ magnitude) : ∃ distance, direction.Reaches magnitude distance := by
  cases direction with
  | plus => exact ⟨magnitude, rfl⟩
  | minus => exact ⟨-magnitude, rfl⟩
  | plusMinus => exact ⟨magnitude, Or.inl rfl⟩
  | within => exact ⟨magnitude, by omega, by omega, Int.le_refl magnitude⟩

theorem OffsetRule.exists_describes {rank : Nat} {rule : OffsetRule} (spacious : 1 ≤ rank)
    (speaks : rule.axis.SpeaksOf rank) (positive : 1 ≤ rule.magnitude) :
    ∃ v, rule.Describes rank v := by
  simp only [Describes]
  split
  · exact exists_liesAround spacious positive
  · have named : ∃ axis < rank, rule.Names axis := by
      rcases speaks with every | known
      · exact ⟨0, spacious, Or.inl every⟩
      · rcases mem_take_axisNames_iff.mp known with ⟨axis, below, found⟩
        exact ⟨axis, below, Or.inr (axisIndex?_eq_some_iff.mp found)⟩
    rcases named with ⟨axis, below, named⟩
    rcases exists_reaches positive with ⟨distance, reached⟩
    rcases exists_liesAlong distance with ⟨v, along⟩
    exact ⟨v, axis, below, named, distance, reached, along⟩

/-- A neighbourhood that makes sense and has a rule describes some vector. -/
theorem Neighborhood.exists_describes {rank : Nat} {shape : Neighborhood} (spacious : 1 ≤ rank)
    (sensible : shape.Sensible rank) (nonempty : shape ≠ .custom []) :
    ∃ v, shape.Describes rank v := by
  cases shape with
  | moore => exact exists_liesAround spacious (Int.le_refl 1)
  | vonNeumann =>
      rcases exists_liesAlong 1 with ⟨v, along⟩
      exact ⟨v, 0, spacious, 1, Or.inl rfl, along⟩
  | custom rules =>
      cases rules with
      | nil => exact absurd rfl nonempty
      | cons rule rules =>
          rcases List.forall_mem_cons.mp sensible with ⟨⟨speaks, positive⟩, _⟩
          rcases OffsetRule.exists_describes spacious speaks positive with ⟨v, described⟩
          exact ⟨v, rule, List.mem_cons_self, described⟩

/-- The check of a neighbourhood with a rule lists its offsets if it makes sense, and its
problems otherwise. -/
theorem checkNeighborhood_cases {rank : Nat} (key : Name) {shape : Neighborhood}
    (spacious : 1 ≤ rank) (nonempty : shape ≠ .custom []) :
    (shape.Sensible rank ∧ ∃ listed, checkNeighborhood rank key shape = .ok ([], some listed) ∧
      Set.ncard {v | shape.Describes rank v} = listed.length) ∨
    ¬shape.Sensible rank ∧ ∃ problems, problems ≠ [] ∧
      checkNeighborhood rank key shape = .ok (problems, none) := by
  rw [checkNeighborhood]
  by_cases clean : shape.problems rank = []
  · have sensible := Neighborhood.problems_eq_nil_iff.mp clean
    rcases Neighborhood.exists_offsets sensible with ⟨listed, known, member⟩
    rcases Neighborhood.exists_describes spacious sensible nonempty with ⟨v, described⟩
    have some_offset : listed ≠ [] := List.ne_nil_of_mem ((member v).mpr described)
    refine Or.inl ⟨sensible, listed, ?_, Neighborhood.ncard_describes known member⟩
    simp only [clean, known, bind, Except.bind, List.isEmpty_iff, if_true, some_offset, if_false]
    rfl
  · refine Or.inr ⟨mt Neighborhood.problems_eq_nil_iff.mpr clean, _, clean, ?_⟩
    simp only [List.isEmpty_iff, clean, if_false]
    rfl

end Cellular
