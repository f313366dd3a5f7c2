import Cellular.Proofs.Condition.Printed
import Cellular.Validation.Resolution

/-!
# Conditions under other names

The states that a condition speaks of may be given other names or numbers. The condition
keeps its shape, and whatever is done to it is done to the renamed condition if it is done
to the renamed tests.
-/

namespace Cellular

/-- The test with another name for its state. -/
def CountTest.map {σ τ : Type} (f : σ → τ) (test : CountTest σ) : CountTest τ :=
  ⟨test.comparison, f test.state, test.bound⟩

namespace Condition

variable {α β γ σ : Type}

mutual

/-- The condition with another test in place of every test. -/
def map (f : α → β) : Condition α → Condition β
  | .test a => .test (f a)
  | .always => .always
  | .not c => .not (map f c)
  | .all cs => .all (mapList f cs)
  | .any cs => .any (mapList f cs)

/-- The same for every operand of a list. -/
def mapList (f : α → β) : List (Condition α) → List (Condition β)
  | [] => []
  | c :: cs => map f c :: mapList f cs

end

theorem mapList_eq (f : α → β) (cs : List (Condition α)) : mapList f cs = cs.map (map f) := by
  induction cs with
  | nil => rfl
  | cons c cs ih => rw [mapList, ih, List.map_cons]

/-! ## One renaming after the other -/

theorem map_map (g : β → γ) (f : α → β) (c : Condition α) : (c.map f).map g = c.map (g ∘ f) := by
  induction c using inductOn with
  | test a => rfl
  | always => rfl
  | not c ih => rw [map, map, map, ih]
  | all cs ih | any cs ih =>
      rw [map, map, map, mapList_eq, mapList_eq, mapList_eq, List.map_map]
      congr 1
      exact List.map_congr_left ih

theorem map_id (c : Condition α) : c.map id = c := by
  induction c using inductOn with
  | test a => rfl
  | always => rfl
  | not c ih => exact congrArg Condition.not ih
  | all cs ih | any cs ih =>
      rw [map, mapList_eq]
      congr 1
      exact (List.map_congr_left ih).trans (List.map_id' cs)

/-! ## What stays -/

theorem depthList_congr {cs : List (Condition α)} {ds : List (Condition β)}
    (same : List.Forall₂ (fun c d => c.depth = d.depth) cs ds) : depthList cs = depthList ds := by
  induction same with
  | nil => rfl
  | cons first _ ih => rw [depthList, depthList, first, ih]

theorem depth_map (f : α → β) (c : Condition α) : (c.map f).depth = c.depth := by
  induction c using inductOn with
  | test a => rfl
  | always => rfl
  | not c ih => exact ih
  | all cs ih | any cs ih =>
      rw [map, mapList_eq, depth, depth, depthList_congr]
      exact List.forall₂_map_left_iff.mpr (List.forall₂_same.mpr ih)

private theorem testsList_map {f : α → β} {cs : List (Condition α)}
    (each : ∀ c ∈ cs, (c.map f).tests = c.tests.map f) :
    testsList (cs.map (map f)) = (testsList cs).map f := by
  induction cs with
  | nil => rfl
  | cons c cs ih =>
      rcases List.forall_mem_cons.mp each with ⟨first, others⟩
      rw [List.map_cons, testsList, testsList, first, ih others, List.map_append]

theorem tests_map (f : α → β) (c : Condition α) : (c.map f).tests = c.tests.map f := by
  induction c using inductOn with
  | test a => rfl
  | always => rfl
  | not c ih => exact ih
  | all cs ih | any cs ih =>
      rw [map, mapList_eq, tests, tests]
      exact testsList_map ih

section Masks

variable {leaf : α → Except (EvaluationFault σ) (Grid Bool)}
  {leaf' : β → Except (EvaluationFault σ) (Grid Bool)}
  {everywhere : Except (EvaluationFault σ) (Grid Bool)} {f : α → β}

private theorem maskList_map {cs : List (Condition α)}
    (each : ∀ c ∈ cs, (c.map f).maskBy leaf' everywhere = c.maskBy leaf everywhere) :
    maskList leaf' everywhere (mapList f cs) = maskList leaf everywhere cs := by
  induction cs with
  | nil => rfl
  | cons c cs ih =>
      rcases List.forall_mem_cons.mp each with ⟨first, others⟩
      rw [mapList, maskList, maskList, first, ih others]

/-- The mask of a renamed condition is that of the condition, if the masks of the tests that
occur are. -/
theorem maskBy_map {c : Condition α} (tests : ∀ a ∈ c.tests, leaf' (f a) = leaf a) :
    (c.map f).maskBy leaf' everywhere = c.maskBy leaf everywhere := by
  induction c using inductOn with
  | test a => exact tests a (List.mem_singleton.mpr rfl)
  | always => rfl
  | not c ih => rw [map, maskBy, maskBy, ih tests]
  | all cs ih | any cs ih =>
      have operands := maskList_map fun c member =>
        ih c member fun a inOperand => tests a (mem_testsList.mpr ⟨c, member, inOperand⟩)
      rw [map, maskBy, maskBy, operands]

end Masks

section Verdicts

variable {leaf : β → Verdict σ} {f : α → β}

private theorem verdictAll_map {cs : List (Condition α)}
    (each : ∀ c ∈ cs, (c.map f).verdictBy leaf = c.verdictBy (leaf ∘ f)) :
    verdictAll leaf (mapList f cs) = verdictAll (leaf ∘ f) cs := by
  induction cs with
  | nil => rfl
  | cons c cs ih =>
      rcases List.forall_mem_cons.mp each with ⟨first, others⟩
      rw [mapList, verdictAll, verdictAll, first, ih others]

private theorem verdictAny_map {cs : List (Condition α)}
    (each : ∀ c ∈ cs, (c.map f).verdictBy leaf = c.verdictBy (leaf ∘ f)) :
    verdictAny leaf (mapList f cs) = verdictAny (leaf ∘ f) cs := by
  induction cs with
  | nil => rfl
  | cons c cs ih =>
      rcases List.forall_mem_cons.mp each with ⟨first, others⟩
      rw [mapList, verdictAny, verdictAny, first, ih others]

theorem verdictBy_map (c : Condition α) : (c.map f).verdictBy leaf = c.verdictBy (leaf ∘ f) := by
  induction c using inductOn with
  | test a => rfl
  | always => rfl
  | not c ih => rw [map, verdictBy, verdictBy, ih]
  | all cs ih => rw [map, verdictBy, verdictBy, verdictAll_map ih]
  | any cs ih => rw [map, verdictBy, verdictBy, verdictAny_map ih]

end Verdicts

section Printing

variable {leaf : β → Except TreeFault String} {f : α → β}

/-- The same task for renamed conditions. -/
private def Task.map (f : α → β) : Task α → Task β
  | visit c outer => .visit (c.map f) outer
  | negate outer => .negate outer
  | join separator strength count outer => .join separator strength count outer

private theorem printAll_map (tasks : List (Task α)) (texts : List String) :
    printAll leaf (tasks.map (Task.map f)) texts = printAll (leaf ∘ f) tasks texts := by
  have visits (cs : List (Condition α)) (outer : Int) :
      (mapList f cs).map (Task.visit · outer) = (cs.map (Task.visit · outer)).map (Task.map f) := by
    rw [mapList_eq, List.map_map, List.map_map]
    rfl
  have length (cs : List (Condition α)) : (mapList f cs).length = cs.length := by
    rw [mapList_eq, List.length_map]
  fun_induction printAll (leaf ∘ f) tasks texts with
  | case1 texts => rw [List.map_nil, printAll]
  | case2 a outer tasks texts ih =>
      rw [List.map_cons, Task.map, Condition.map, printAll]
      exact bind_congr ih
  | case3 c outer tasks texts ih =>
      rw [List.map_cons, Task.map, Condition.map, printAll]
      exact ih
  | case4 cs outer tasks texts ih | case5 cs outer tasks texts ih =>
      rw [attach_visits, List.map_append, ← visits] at ih
      rw [List.map_cons, Task.map, Condition.map, printAll, length]
      exact ih
  | case6 outer tasks texts => rw [List.map_cons, Task.map, Condition.map, printAll]
  | case7 outer tasks texts ih =>
      rw [List.map_cons, Task.map, printAll]
      exact ih
  | case8 separator strength count outer tasks texts taken ih =>
      rw [List.map_cons, Task.map, printAll]
      exact ih

theorem print_map (outer : Int) (c : Condition α) :
    (c.map f).print leaf outer = c.print (leaf ∘ f) outer :=
  congrArg _ (printAll_map [.visit c outer] [])

end Printing

/-! ## Resolving under other names -/

theorem map_negateIf (f : α → β) (negate : Bool) (c : Condition α) :
    (negateIf negate c).map f = negateIf negate (c.map f) := by
  cases negate <;> rfl

section Resolving

variable {π δ β' : Type} {leaf : α → Except TreeFault (List π × Option β)}
  {leaf' : δ → Except TreeFault (List π × Option β')} {f : α → γ} {g : δ → γ} {h : β → β'}

private theorem resolveList_map {π' : Type} {leaf' : γ → Except TreeFault (List π' × Option β')}
    {p : π → π'} {cs : List (Condition α)}
    (each : ∀ c ∈ cs, ∀ {negate problems answer}, resolveBy leaf negate c = .ok (problems, answer) →
      resolveBy leaf' negate (c.map f) = .ok (problems.map p, answer.map (map h)))
    {problems : List π} {answer : Option (List (Condition β))}
    (done : resolveList leaf cs = .ok (problems, answer)) :
    resolveList leaf' (mapList f cs) = .ok (problems.map p, answer.map (mapList h)) := by
  induction cs generalizing problems answer with
  | nil =>
      rw [resolveList] at done
      rcases Prod.mk.inj (Except.ok.inj done) with ⟨rfl, rfl⟩
      rfl
  | cons c cs ih =>
      rcases List.forall_mem_cons.mp each with ⟨first, others⟩
      rw [resolveList, bind_eq_ok_iff] at done
      rcases done with ⟨⟨found, operand⟩, head, done⟩
      rcases bind_eq_ok_iff.mp done with ⟨⟨more, operands⟩, tail, done⟩
      rcases Prod.mk.inj (Except.ok.inj done) with ⟨rfl, rfl⟩
      rw [mapList, resolveList, first head, ih others tail]
      cases operand <;> cases operands <;> simp [mapList]

/-- If the problems and the resolved forms of tests are exchanged, then so are those of
conditions. -/
theorem resolveBy_map {π' : Type} {leaf' : γ → Except TreeFault (List π' × Option β')}
    {p : π → π'}
    (tests : ∀ a problems answer, leaf a = .ok (problems, answer) →
      leaf' (f a) = .ok (problems.map p, answer.map h))
    {c : Condition α} {negate : Bool} {problems : List π} {answer : Option (Condition β)}
    (done : resolveBy leaf negate c = .ok (problems, answer)) :
    resolveBy leaf' negate (c.map f) = .ok (problems.map p, answer.map (map h)) := by
  induction c using inductOn generalizing negate problems answer with
  | test a =>
      rw [resolveBy, bind_eq_ok_iff] at done
      rcases done with ⟨⟨found, resolved⟩, known, done⟩
      rcases Prod.mk.inj (Except.ok.inj done) with ⟨rfl, rfl⟩
      rw [map, resolveBy, tests a _ _ known]
      simp [Function.comp_def, map_negateIf, map]
  | always => exact absurd done nofun
  | not c ih =>
      rw [resolveBy] at done
      rw [map, resolveBy, ih done]
  | all cs ih | any cs ih =>
      rw [resolveBy, bind_eq_ok_iff] at done
      rcases done with ⟨⟨found, resolved⟩, known, done⟩
      rcases Prod.mk.inj (Except.ok.inj done) with ⟨rfl, rfl⟩
      rw [map, resolveBy, resolveList_map ih known]
      simp [Function.comp_def, map_negateIf, map]

private theorem resolveList_of_clean {c : Condition α} {cs : List (Condition α)}
    {resolved : List (Condition β)}
    (done : resolveList leaf (c :: cs) = .ok ([], some resolved)) :
    ∃ first rest, resolveBy leaf false c = .ok ([], some first) ∧
      resolveList leaf cs = .ok ([], some rest) ∧ resolved = first :: rest := by
  rw [resolveList, bind_eq_ok_iff] at done
  rcases done with ⟨⟨problems, operand⟩, head, done⟩
  rw [bind_eq_ok_iff] at done
  rcases done with ⟨⟨more, operands⟩, tail, done⟩
  rcases Prod.mk.inj (Except.ok.inj done) with ⟨clean, known⟩
  rcases List.append_eq_nil_iff.mp clean with ⟨rfl, rfl⟩
  rcases Option.bind_eq_some_iff.mp known with ⟨first, rfl, known⟩
  rcases Option.map_eq_some_iff.mp known with ⟨rest, rfl, rfl⟩
  exact ⟨first, rest, head, tail, rfl⟩

/-- A node is resolved when its operands are. -/
private theorem node_of_clean {node : List (Condition β) → Condition β} {negate : Bool}
    {cs : List (Condition α)} {resolved : Condition β}
    (done : (do
      let (problems, operands) ← resolveList leaf cs
      return (problems, operands.map fun operands => negateIf negate (node operands))) =
        Except.ok ([], some resolved)) :
    ∃ operands, resolveList leaf cs = .ok ([], some operands) ∧
      resolved = negateIf negate (node operands) := by
  rcases bind_eq_ok_iff.mp done with ⟨⟨problems, operands⟩, known, done⟩
  rcases Prod.mk.inj (Except.ok.inj done) with ⟨rfl, resolves⟩
  rcases Option.map_eq_some_iff.mp resolves with ⟨operands, rfl, rfl⟩
  exact ⟨operands, known, rfl⟩

private theorem resolveList_of_map {cs : List (Condition α)}
    (each : ∀ c ∈ cs, ∀ {d : Condition δ}, d.map g = c.map f → ∀ {negate resolved},
      resolveBy leaf negate c = .ok ([], some resolved) →
        resolveBy leaf' negate d = .ok ([], some (resolved.map h)))
    {ds : List (Condition δ)} (same : mapList g ds = mapList f cs) {operands : List (Condition β)}
    (done : resolveList leaf cs = .ok ([], some operands)) :
    resolveList leaf' ds = .ok ([], some (mapList h operands)) := by
  rw [mapList_eq, mapList_eq] at same
  induction cs generalizing ds operands with
  | nil =>
      obtain rfl := List.map_eq_nil_iff.mp same
      rw [resolveList] at done
      obtain rfl := Option.some.inj (Prod.mk.inj (Except.ok.inj done)).2
      rfl
  | cons c cs ih =>
      rcases List.map_eq_cons_iff.mp same with ⟨d, ds, rfl, head, tail⟩
      rcases resolveList_of_clean done with ⟨first, rest, resolved, others, rfl⟩
      rcases List.forall_mem_cons.mp each with ⟨own, further⟩
      rw [resolveList, own head resolved, ih further tail others]
      rfl

/-- If tests that are the same under other names are resolved to the same under other
numbers, then so are conditions. -/
theorem resolveBy_of_map
    (tests : ∀ a d b, g d = f a → leaf a = .ok ([], some b) → leaf' d = .ok ([], some (h b)))
    {c : Condition α} {d : Condition δ} (same : d.map g = c.map f) {negate : Bool}
    {resolved : Condition β} (done : resolveBy leaf negate c = .ok ([], some resolved)) :
    resolveBy leaf' negate d = .ok ([], some (resolved.map h)) := by
  induction c using inductOn generalizing d negate resolved with
  | test a =>
      cases d with
      | test b =>
          rw [resolveBy, bind_eq_ok_iff] at done
          rcases done with ⟨⟨problems, answer⟩, known, done⟩
          rcases Prod.mk.inj (Except.ok.inj done) with ⟨rfl, resolves⟩
          rcases Option.map_eq_some_iff.mp resolves with ⟨b', rfl, rfl⟩
          rw [resolveBy, tests a b b' (Condition.test.inj same) known, map_negateIf]
          rfl
      | _ => exact absurd same nofun
  | always => exact absurd done nofun
  | not c ih =>
      cases d with
      | not d =>
          rw [resolveBy] at done ⊢
          exact ih (Condition.not.inj same) done
      | _ => exact absurd same nofun
  | all cs ih =>
      cases d with
      | all ds =>
          rw [resolveBy] at done ⊢
          rcases node_of_clean done with ⟨operands, known, rfl⟩
          rw [resolveList_of_map ih (Condition.all.inj same) known, map_negateIf]
          rfl
      | _ => exact absurd same nofun
  | any cs ih =>
      cases d with
      | any ds =>
          rw [resolveBy] at done ⊢
          rcases node_of_clean done with ⟨operands, known, rfl⟩
          rw [resolveList_of_map ih (Condition.any.inj same) known, map_negateIf]
          rfl
      | _ => exact absurd same nofun

end Resolving

end Condition

end Cellular
