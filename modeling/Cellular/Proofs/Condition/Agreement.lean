import Cellular.Proofs.Condition.Truth
import Cellular.Proofs.Space.Pointwise

/-!
# Both ways of evaluating a condition

A condition is evaluated at one cell, where operands that cannot change the outcome are
left out, or on a whole grid, where they are not. Both ways give its truth value. For a
grid this needs an operand in every node: the mask of no operands at all is the grid of
rank zero and not a grid of the shape that is asked for.
-/

namespace Cellular

/-! ## At one cell -/

namespace Verdict

variable {σ : Type}

theorem andThen_eq {first : Verdict σ} {value : Bool} (known : first.result = .ok value)
    (next : Bool → Verdict σ) :
    first.andThen next = ⟨first.reads ++ (next value).reads, (next value).result⟩ := by
  rw [andThen, known]

theorem andThen_result {first : Verdict σ} {value : Bool} (known : first.result = .ok value)
    (next : Bool → Verdict σ) : (first.andThen next).result = (next value).result := by
  rw [andThen_eq known]

end Verdict

theorem CountTest.verdict_result {σ : Type} (counts : σ → Int) (test : CountTest σ) :
    (test.verdict fun state => some (counts state)).result = .ok (test.value counts) :=
  rfl

namespace Condition

variable {α σ : Type}

section Cell

variable {leaf : α → Verdict σ} {truth : α → Bool}

private theorem verdictAll_result {cs : List (Condition α)}
    (operands : ∀ c ∈ cs, (c.verdictBy leaf).result = .ok (c.value truth)) :
    (verdictAll leaf cs).result = .ok (cs.all (value truth)) := by
  induction cs with
  | nil => rfl
  | cons c cs ih =>
      rcases List.forall_mem_cons.mp operands with ⟨first, others⟩
      rw [verdictAll, Verdict.andThen_result first, List.all_cons]
      cases c.value truth with
      | false => rfl
      | true => exact ih others

private theorem verdictAny_result {cs : List (Condition α)}
    (operands : ∀ c ∈ cs, (c.verdictBy leaf).result = .ok (c.value truth)) :
    (verdictAny leaf cs).result = .ok (cs.any (value truth)) := by
  induction cs with
  | nil => rfl
  | cons c cs ih =>
      rcases List.forall_mem_cons.mp operands with ⟨first, others⟩
      rw [verdictAny, Verdict.andThen_result first, List.any_cons]
      cases c.value truth with
      | false => exact ih others
      | true => rfl

/-- A verdict on tests that all have a value is the truth value of the condition. -/
theorem verdictBy_result (total : ∀ a, (leaf a).result = .ok (truth a)) (c : Condition α) :
    (c.verdictBy leaf).result = .ok (c.value truth) := by
  induction c using inductOn with
  | test a => exact total a
  | always => rfl
  | not c ih =>
      rw [verdictBy, Verdict.andThen_result ih]
      rfl
  | all cs ih =>
      rw [verdictBy, verdictAll_result ih, value, valueAll_eq]
  | any cs ih =>
      rw [verdictBy, verdictAny_result ih, value, valueAny_eq]

end Cell

/-- With a count for every state, the verdict on a condition is its truth value. -/
theorem verdict_result (counts : σ → Int) (c : Condition (CountTest σ)) :
    (c.verdict fun state => some (counts state)).result = .ok (c.value (CountTest.value counts)) :=
  verdictBy_result (CountTest.verdict_result counts) c

/-! ## On a whole grid -/

section Grids

variable {shape : List Nat}

/-- Grids of one shape are combined cell by cell, if there is at least one. -/
theorem combine_ofFn {operation : Bool → Bool → Bool} {neutral : Bool}
    (unit : ∀ b, operation b neutral = b) {values : List (Vec → Bool)} (nonempty : values ≠ []) :
    combine (σ := σ) operation neutral (values.map (Grid.ofFn shape)) =
      .ok (Grid.ofFn shape fun cell => (values.map (· cell)).foldr operation neutral) := by
  induction values with
  | nil => exact absurd rfl nonempty
  | cons first values ih =>
      cases values with
      | nil =>
          rw [List.map_singleton, combine]
          exact congrArg Except.ok (Grid.ofFn_congr fun cell _ => (unit (first cell)).symm)
      | cons second values =>
          rw [List.map_cons, List.map_cons, combine, ← List.map_cons, ih (by simp)]
          · change (if same : shape = shape then _ else _) = _
            rw [dif_pos rfl]
            exact congrArg Except.ok (Grid.zipWith_ofFn ..)
          · simp

private theorem valueAll_eq_foldr (truth : α → Bool) (cs : List (Condition α)) :
    valueAll truth cs = cs.foldr (fun c rest => c.value truth && rest) true := by
  induction cs with
  | nil => rfl
  | cons c cs ih => rw [valueAll, List.foldr_cons, ih]

private theorem valueAny_eq_foldr (truth : α → Bool) (cs : List (Condition α)) :
    valueAny truth cs = cs.foldr (fun c rest => c.value truth || rest) false := by
  induction cs with
  | nil => rfl
  | cons c cs ih => rw [valueAny, List.foldr_cons, ih]

variable {leaf : α → Except (EvaluationFault σ) (Grid Bool)} {truth : Vec → α → Bool}

private theorem maskList_eq {everywhere : Except (EvaluationFault σ) (Grid Bool)}
    {cs : List (Condition α)}
    (operands : ∀ c ∈ cs, c.maskBy leaf everywhere =
      .ok (Grid.ofFn shape fun cell => c.value (truth cell))) :
    maskList leaf everywhere cs =
      .ok ((cs.map fun c cell => c.value (truth cell)).map (Grid.ofFn shape)) := by
  induction cs with
  | nil => rfl
  | cons c cs ih =>
      rcases List.forall_mem_cons.mp operands with ⟨first, others⟩
      rw [maskList, first, ih others]
      rfl

private theorem combine_masks {operation : Bool → Bool → Bool} {neutral : Bool}
    (unit : ∀ b, operation b neutral = b)
    {everywhere : Except (EvaluationFault σ) (Grid Bool)} {cs : List (Condition α)}
    (enough : 1 ≤ cs.length)
    (operands : ∀ c ∈ cs, c.maskBy leaf everywhere =
      .ok (Grid.ofFn shape fun cell => c.value (truth cell))) :
    (maskList leaf everywhere cs >>= combine operation neutral) =
      .ok (Grid.ofFn shape fun cell =>
        cs.foldr (fun c rest => operation (c.value (truth cell)) rest) neutral) := by
  have nonempty : (cs.map fun c cell => c.value (truth cell)) ≠ [] := by
    cases cs <;> simp_all
  rw [maskList_eq operands]
  apply (combine_ofFn unit nonempty).trans
  apply congrArg Except.ok
  apply Grid.ofFn_congr
  intro cell _
  rw [List.map_map, List.foldr_map]
  rfl

/-- If the mask of every test that occurs shows its truth values, then so does the mask
of the condition. -/
theorem maskBy_eq {c : Condition α} (branching : c.Branching 1)
    (tests : ∀ a ∈ c.tests, leaf a = .ok (Grid.ofFn shape fun cell => truth cell a)) :
    c.maskBy leaf (.ok (Grid.fill shape true)) =
      .ok (Grid.ofFn shape fun cell => c.value (truth cell)) := by
  induction c using inductOn with
  | test a => exact tests a (by simp [Condition.tests])
  | always => exact congrArg Except.ok (Grid.fill_eq_ofFn shape true)
  | not c ih =>
      rw [maskBy, ih branching tests]
      exact congrArg Except.ok (Grid.map_ofFn ..)
  | all cs ih =>
      rcases branching with ⟨enough, operands⟩
      have masks := fun c member => ih c member (branchingAll_iff.mp operands c member)
        fun a inOperand => tests a (mem_testsList.mpr ⟨c, member, inOperand⟩)
      rw [maskBy, combine_masks Bool.and_true enough masks]
      simp only [value, valueAll_eq_foldr]
  | any cs ih =>
      rcases branching with ⟨enough, operands⟩
      have masks := fun c member => ih c member (branchingAll_iff.mp operands c member)
        fun a inOperand => tests a (mem_testsList.mpr ⟨c, member, inOperand⟩)
      rw [maskBy, combine_masks Bool.or_false enough masks]
      simp only [value, valueAny_eq_foldr]

end Grids

end Condition

end Cellular
