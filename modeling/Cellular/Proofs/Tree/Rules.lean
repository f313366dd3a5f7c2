import Cellular.Proofs.Tree.Conditions

/-!
# Boundaries and rules as trees

The boundary and the rules of a tree are resolved like those of the program, with the same
problems and the same warnings. A boundary with a problem still has the number of a state; it
is never looked at, because a program with problems is rejected.
-/

namespace Cellular.Tree

variable (registry : Registry)

/-! ## Boundaries -/

theorem checkBoundary_tree (key : Name) (edge : Boundary (Option Name)) :
    Finds (checkBoundary registry key.word ((Value.boundary edge).tree Name.word))
      (Cellular.checkBoundary registry key edge).1
      (((Cellular.checkBoundary registry key edge).2.getD (.static 0)).tree numberTree) := by
  cases edge with
  | void => exact Finds.after rfl (Finds.nothing _)
  | wrap => exact Finds.after rfl (Finds.nothing _)
  | static state =>
      have kind : ((Value.boundary (.static state)).tree Name.word).tag = .ok (word "STATIC") := rfl
      apply Finds.after kind
      simp only [isWord_word, beq_self_eq_true, Bool.not_true, Bool.false_eq_true, if_false]
      apply Finds.after rfl
      cases state with
      | none =>
          rw [Cellular.checkBoundary]
          cases registry.default? with
          | none => exact (Finds.require false (.noDefault key)).returning fun _ => _
          | some state => exact (Finds.require true (.noDefault key)).returning fun _ => _
      | some state =>
          have present : state.word.isMissing = false := rfl
          simp only [Option.map_some, Option.getD_some, present, Bool.false_eq_true, if_false,
            stateIndex?_word, Cellular.checkBoundary]
          cases registry.indexOf? state.text with
          | none => exact (Finds.require false (.undeclaredInBoundary state)).returning fun _ => _
          | some index =>
              exact (Finds.require true (.undeclaredInBoundary state)).returning fun _ => _

/-! ## Rules -/

variable {registry} {most : Option Nat}

/-- What is known with one more rule, if it is resolved: its resolved form, and a warning if
it never changes a cell. -/
def Rules.with (checked : Rules) (rule : Rule Name) (resolved : Option (Rule Nat)) : Rules where
  rules := checked.rules ++ resolved.toList.map (Rule.tree numberTree)
  warnings := checked.warnings ++
    if resolved.isSome && rule.source.text == rule.target.text then
      [⟨rule.source.bare, rule.target.bare⟩] else []

theorem Rules.with_none (checked : Rules) (rule : Rule Name) :
    checked.with rule none = checked := by
  simp [Rules.with]

/-- One more rule has the problems of the rule, and is resolved if the rule is. -/
theorem addRule_tree {rule : Rule Name} (printable : rule.condition.Printable)
    {problems : List Problem} {resolved : Option (Rule Nat)}
    (done : rule.resolve registry most = .ok (problems, resolved)) (checked : Rules) :
    Finds (addRule registry most checked (rule.tree Name.word)) problems
      (checked.with rule resolved) := by
  rcases rule with ⟨source, target, condition⟩
  have role (role : Role) (state : Name) :
      Finds (require (registry.indexOf? state.text).isSome (.undeclaredInRule role state.bare))
        (roleProblems registry role state) (registry.indexOf? state.text).isSome := by
    rw [roleProblems, Registry.declares_eq]
    exact Finds.require _ (.undeclaredInRule role state)
  have opened : (Rule.tree Name.word ⟨source, target, condition⟩).threeOperands =
      .ok (source.word, target.word, condition.tree Name.word) := rfl
  rw [Rule.resolve] at done
  dsimp only at done
  apply Finds.after opened
  simp only [stateIndex?_word]
  split at done
  · rename_i deep
    rcases Prod.mk.inj (Except.ok.inj done) with ⟨rfl, rfl⟩
    rw [List.append_assoc, Rules.with_none]
    apply (role .source source).bind
    apply (role .target target).bind
    apply Finds.after (Condition.depth_tree printable)
    rw [if_pos deep]
    exact (Finds.problems [.nestedTooDeep source target]).returning fun _ => checked
  · rename_i shallow
    rcases bind_eq_ok_iff.mp done with ⟨⟨found, answer⟩, known, done⟩
    rcases Prod.mk.inj (Except.ok.inj done) with ⟨rfl, rfl⟩
    rw [List.append_assoc]
    apply (role .source source).bind
    apply (role .target target).bind
    apply Finds.after (Condition.depth_tree printable)
    rw [if_neg shallow]
    apply Finds.after (Condition.resolveBy_tree printable known)
    apply Finds.noting found
    cases registry.indexOf? source.text with
    | none => exact (checked.with_none _).symm ▸ Finds.nothing checked
    | some sourceIndex =>
        cases registry.indexOf? target.text with
        | none => exact (checked.with_none _).symm ▸ Finds.nothing checked
        | some targetIndex =>
            cases answer with
            | none => exact (checked.with_none _).symm ▸ Finds.nothing checked
            | some resolved =>
                dsimp only [Option.map_some]
                rw [ofCondition_map]
                exact Finds.nothing _

theorem foldlM_addRule {rules : List (Rule Name)}
    (printable : ∀ rule ∈ rules, rule.condition.Printable) {found : CheckedRules}
    (done : checkRules registry most rules = .ok found) (checked : Rules) :
    Finds ((rules.map (Rule.tree Name.word)).foldlM (addRule registry most) checked) found.problems
      ⟨checked.rules ++ found.rules.map (Rule.tree numberTree),
        checked.warnings ++ found.warnings.map Warning.bare⟩ := by
  induction rules generalizing found checked with
  | nil =>
      obtain rfl := Except.ok.inj done
      have unchanged : checked = ⟨checked.rules ++ [], checked.warnings ++ []⟩ := by
        rw [List.append_nil, List.append_nil]
      exact unchanged ▸ Finds.nothing checked
  | cons rule rules ih =>
      rcases List.forall_mem_cons.mp printable with ⟨first, others⟩
      rw [checkRules] at done
      rcases bind_eq_ok_iff.mp done with ⟨⟨problems, resolved⟩, head, done⟩
      rcases bind_eq_ok_iff.mp done with ⟨rest, tail, done⟩
      obtain rfl := pure_eq_ok_iff.mp done
      rw [List.map_cons, List.foldlM_cons]
      apply (addRule_tree first head checked).bind
      rw [List.map_append, List.map_append, ← List.append_assoc, ← List.append_assoc,
        apply_ite (List.map Warning.bare)]
      exact ih others tail _

end Cellular.Tree
