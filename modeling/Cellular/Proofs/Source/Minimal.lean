import Cellular.Proofs.Source.RoundTrip
import Cellular.Proofs.Source.Unwrapped
import Mathlib.Algebra.Ring.Nat

/-!
# No parentheses too many

A condition is printed with the parentheses that it needs and no others: no text of the same
condition has fewer parentheses than the printed one. As the printed text is still a condition
without any one of its pairs, it is the text of another condition then.
-/

namespace Cellular

/-! ## How many parentheses a condition needs -/

/-- The number of parentheses that a text opens. -/
def opened (text : String) : Nat :=
  text.toList.count '('

@[simp]
theorem opened_append (first second : String) :
    opened (first ++ second) = opened first + opened second := by
  rw [opened, String.toList_append, List.count_append]
  rfl

theorem opened_enclosed (needed : Bool) (text : String) :
    opened (Condition.enclosed needed text) = needed.toNat + opened text := by
  cases needed with
  | false => exact (Nat.zero_add _).symm
  | true =>
      have opens : opened "(" = 1 := rfl
      have closes : opened ")" = 0 := rfl
      simp [Condition.enclosed, opens, closes]

theorem opened_intercalate {separator : String} (free : opened separator = 0)
    (texts : List String) : opened (separator.intercalate texts) = (texts.map opened).sum := by
  induction texts with
  | nil => rfl
  | cons first others ih =>
      rcases others with _ | ⟨second, others⟩
      · simp
      · rw [String.intercalate_cons_cons, opened_append, opened_append, ih, free]
        simp

/-- A test has one pair of parentheses. -/
theorem CountTest.opened_text {a : CountTest Name} (isName : a.state.Spelled) :
    opened a.text = 1 := by
  have word : Keyword.neighborhood.text.toList.count '(' = 0 := rfl
  rw [opened, toList_text, List.count_append, List.count_cons_self, word,
    List.count_eq_zero_of_not_mem (notMem_argument isName)]

namespace Condition

/-- The number of parentheses of a printed condition. -/
def parentheses (outer : Int) (c : Condition (CountTest Name)) : Nat :=
  opened (c.printed CountTest.text outer)

theorem parentheses_not (outer : Int) (c : Condition (CountTest Name)) :
    parentheses outer (.not c) = (decide (3 ≤ outer)).toNat + parentheses 2 c := by
  have bang : opened "!" = 0 := rfl
  rw [parentheses, printed, opened_enclosed, opened_append, bang, Nat.zero_add]
  rfl

theorem parentheses_all (outer : Int) (cs : List (Condition (CountTest Name))) :
    parentheses outer (.all cs) = (decide (2 ≤ outer)).toNat + (cs.map (parentheses 2)).sum := by
  rw [parentheses, printed, opened_enclosed, printedAll_eq, opened_intercalate rfl, List.map_map]
  rfl

theorem parentheses_any (outer : Int) (cs : List (Condition (CountTest Name))) :
    parentheses outer (.any cs) = (decide (1 ≤ outer)).toNat + (cs.map (parentheses 1)).sum := by
  rw [parentheses, printed, opened_enclosed, printedAll_eq, opened_intercalate rfl, List.map_map]
  rfl

/-- A place that asks for more has at most one more parenthesis. -/
theorem parentheses_mono {outer inner : Int} (weaker : outer ≤ inner)
    (c : Condition (CountTest Name)) :
    parentheses outer c ≤ parentheses inner c ∧ parentheses inner c ≤ parentheses outer c + 1 := by
  have needed : ∀ strength : Int,
      (decide (strength ≤ outer)).toNat ≤ (decide (strength ≤ inner)).toNat ∧
        (decide (strength ≤ inner)).toNat ≤ (decide (strength ≤ outer)).toNat + 1 := by
    intro strength
    by_cases asked : strength ≤ outer
    · simp [asked, Int.le_trans asked weaker]
    · simp [asked, Bool.toNat_le]
  cases c with
  | test a => exact ⟨Nat.le_refl _, Nat.le_succ _⟩
  | always => exact ⟨Nat.le_refl _, Nat.le_succ _⟩
  | not c =>
      have extra := needed 3
      rw [parentheses_not, parentheses_not]
      omega
  | all cs =>
      have extra := needed 2
      rw [parentheses_all, parentheses_all]
      omega
  | any cs =>
      have extra := needed 1
      rw [parentheses_any, parentheses_any]
      omega

/-- Gathered conditions have the parentheses of a node, also if there is only one of them and
the place of the node asks for no more than that of an operand, or has parentheses to spare. -/
theorem parentheses_gathered
    {node : List (Condition (CountTest Name)) → Condition (CountTest Name)} {outer strength : Int}
    {own : Nat}
    (several : ∀ cs, parentheses outer (node cs) = own + (cs.map (parentheses strength)).sum)
    (fits : outer ≤ strength ∨ strength ≤ outer ∧ 1 ≤ own)
    (cs : List (Condition (CountTest Name))) :
    parentheses outer (gathered node cs) ≤ own + (cs.map (parentheses strength)).sum := by
  rcases cs with _ | ⟨c, _ | ⟨d, cs⟩⟩
  · exact Nat.le_of_eq (several [])
  · rw [List.map_singleton, List.sum_singleton]
    change parentheses outer c ≤ own + parentheses strength c
    rcases fits with weaker | ⟨stronger, spare⟩
    · exact Nat.le_add_left_of_le (parentheses_mono weaker c).1
    · have bound := (parentheses_mono stronger c).2
      omega
  · exact Nat.le_of_eq (several (c :: d :: cs))

end Condition

/-- The number of parentheses that a part of a condition is printed with. -/
def Reading.parentheses : Reading → Nat
  | disjunction alternatives => (alternatives.map (Condition.parentheses 1)).sum
  | conjunction operands => (operands.map (Condition.parentheses 2)).sum
  | operand c => c.parentheses 2

/-- The number of tokens that open a parenthesis. -/
def openings (tokens : List Token) : Nat :=
  tokens.countP (·.terminal = .mark .openParen)

@[simp]
theorem openings_append (before tokens : List Token) :
    openings (before ++ tokens) = openings before + openings tokens :=
  List.countP_append

theorem openings_pos {tokens : List Token} {token : Token} (member : token ∈ tokens)
    (opens : token.terminal = .mark .openParen) : 0 < openings tokens :=
  List.countP_pos_iff.mpr ⟨token, member, decide_eq_true opens⟩

/-- No phrase of a condition has fewer parentheses than the condition is printed with. -/
theorem ConditionPhrase.parentheses_le {tokens : List Token} {reading : Reading}
    (phrase : ConditionPhrase tokens reading) (spelled : AllSpelled tokens) :
    reading.parentheses ≤ openings tokens := by
  have conjunction : ∀ cs, (gathered .all cs).parentheses 1 ≤
      0 + (cs.map (Condition.parentheses 2)).sum :=
    Condition.parentheses_gathered (Condition.parentheses_all 1) (.inl (by decide))
  induction phrase with
  | @alternative tokens operands _ ih =>
      have gathers := conjunction operands
      have several := ih spelled
      simp only [Reading.parentheses, List.map_singleton, List.sum_singleton] at several ⊢
      omega
  | @alternatives before tokens bar earlier operands _ _ _ ih ih' =>
      simp only [AllSpelled.append_iff] at spelled
      have gathers := conjunction operands
      have first := ih spelled.1.1
      have last := ih' spelled.2
      simp only [Reading.parentheses, List.map_append, List.sum_append, List.map_singleton,
        List.sum_singleton, openings_append] at first last ⊢
      omega
  | operand _ ih =>
      have single := ih spelled
      simpa only [Reading.parentheses, List.map_singleton, List.sum_singleton] using single
  | operands _ _ _ ih ih' =>
      simp only [AllSpelled.append_iff] at spelled
      have first := ih spelled.1.1
      have last := ih' spelled.2
      simp only [Reading.parentheses, List.map_append, List.sum_append, List.map_singleton,
        List.sum_singleton, openings_append] at first last ⊢
      omega
  | negation _ _ ih =>
      have inner := ih (AllSpelled.append_iff.mp spelled).2
      have binds : decide ((3 : Int) ≤ 2) = false := rfl
      simp only [Reading.parentheses, Condition.parentheses_not, binds, Bool.toNat_false,
        openings_append] at inner ⊢
      omega
  | @parentheses opened closed tokens alternatives opens _ _ ih =>
      simp only [AllSpelled.append_iff] at spelled
      have gathers : (gathered .any alternatives).parentheses 2 ≤
          1 + (alternatives.map (Condition.parentheses 1)).sum :=
        Condition.parentheses_gathered (Condition.parentheses_any 2) (.inr (by decide)) alternatives
      have inner := ih spelled.1.2
      have outer := openings_pos (List.mem_singleton_self opened) opens
      simp only [Reading.parentheses, openings_append] at inner ⊢
      omega
  | @test word opened state closed symbol bound comparison _ opens isName _ _ _ _ =>
      have spells := spelled state (by simp)
      have single := CountTest.opened_text (a := ⟨comparison, state.toName, bound.toInt⟩)
        (spells.toName isName)
      have opening : 0 < openings [word, opened, state, closed, symbol, bound] :=
        openings_pos (by simp) opens
      exact Nat.le_trans (Nat.le_of_eq single) opening

/-! ## The printed form needs its parentheses -/

/-- A text has the parentheses of all tokens that it is laid out from. -/
theorem Laid.openings_le {joins : Token → List Char → Prop} {tokens : List Token}
    {chars : List Char} (laid : Laid joins tokens chars) (spelled : AllSpelled tokens) :
    openings tokens ≤ chars.count '(' := by
  induction laid with
  | done => exact Nat.zero_le _
  | blank _ _ ih => exact Nat.le_trans (ih spelled) List.count_le_count_cons
  | comment _ _ _ ih =>
      rw [List.count_append]
      exact Nat.le_add_left_of_le (ih spelled)
  | @word token tokens chars _ _ ih =>
      rcases AllSpelled.cons_iff.mp spelled with ⟨own, others⟩
      have rest := ih others
      have first : openings [token] ≤ token.text.toList.count '(' := by
        by_cases opens : token.terminal = .mark .openParen
        · rw [Token.Spelled, opens] at own
          have chars : token.text.toList = Mark.openParen.text.toList := own
          rw [chars]
          exact List.countP_le_length
        · simp [openings, opens]
      rw [List.count_append]
      exact Nat.le_trans (Nat.le_of_eq (openings_append [token] tokens))
        (Nat.add_le_add first rest)

/-- No text of a condition has fewer parentheses than its printed form. -/
theorem Written.parentheses_le {c : Condition (CountTest Name)} {text : String}
    (written : Written DisjunctionPhrase c text) : c.parentheses 0 ≤ opened text := by
  rcases written with ⟨tokens, ⟨alternatives, phrase, rfl⟩, spelled, writes⟩
  have laid := writes [] [] nofun .done
  simp only [List.append_nil] at laid
  have gathers : (gathered .any alternatives).parentheses 0 ≤
      0 + (alternatives.map (Condition.parentheses 1)).sum :=
    Condition.parentheses_gathered (Condition.parentheses_any 0) (.inl (by decide)) alternatives
  have needed := phrase.parentheses_le spelled
  have present := laid.openings_le spelled
  rw [opened]
  simp only [Reading.parentheses] at needed
  omega

/-- As the condition of a rule a text is read as a condition, but for the places of its
names, whatever the block of the rule and its states are called. -/
def ReadAs (text : String) (c : Condition (CountTest Name)) : Prop :=
  ∀ key source target : Name, key.Spelled → source.Spelled → target.Spelled →
    ∃ program, readProgram (programText [declarationText key.text
        (rulesText [ruleText source.text target.text text])]) = .ok program ∧
      program.map Declaration.anchored =
        [Declaration.anchored ⟨key, .rules [⟨source, target, c⟩]⟩]

theorem readAs_of_written {c : Condition (CountTest Name)} {text : String}
    (written : Written DisjunctionPhrase c text) : ReadAs text c := by
  intro key source target isKey isSource isTarget
  have rules : Written ValuePhrase (.rules ([c].map fun d => ⟨source.anchored, target.anchored, d⟩))
      (rulesText ([c].map fun _ => ruleText source.text target.text text)) := by
    apply rules_written
    intro d member
    obtain rfl := List.mem_singleton.mp member
    exact rule_written isSource isTarget written
  rw [List.map_singleton, List.map_singleton] at rules
  have clear : Value.Clear (.rules [⟨source.anchored, target.anchored, c⟩]) := trivial
  have declared := declaration_written isKey clear rules
  have read : ∃ program, readProgram (programText ([c].map fun _ => declarationText key.text
        (rulesText [ruleText source.text target.text text]))) = .ok program ∧
      program.map Declaration.anchored = ([c].map fun d => Declaration.mk key.anchored
        (.rules [⟨source.anchored, target.anchored, d⟩])).map Declaration.anchored := by
    apply readProgram_of_each_written
    intro d member
    obtain rfl := List.mem_singleton.mp member
    exact declared
  exact read

theorem ReadAs.of_anchored {text : String} {c d : Condition (CountTest Name)}
    (read : ReadAs text c) (same : c.anchored = d.anchored) : ReadAs text d := by
  intro key source target isKey isSource isTarget
  rcases read key source target isKey isSource isTarget with ⟨program, accepted, anchored⟩
  refine ⟨program, accepted, anchored.trans ?_⟩
  simp only [Declaration.map, Value.map, List.map_singleton, Rule.map, same]

/-- A condition that can be read is printed as a text that is read as the condition. Without
any one pair of parentheses that group, the text is read as another condition. -/
theorem parentheses_needed {c : Condition (CountTest Name)} (readable : c.Readable) :
    ∃ text, c.print (fun test => .ok test.text) 0 = .ok text ∧ ReadAs text c ∧
      ∀ less : String, Unwraps text.toList less.toList →
        ∃ other, ReadAs less other ∧ other.anchored ≠ c.anchored := by
  refine ⟨c.printed CountTest.text 0, Condition.print_eq (fun _ => rfl) readable.printable 0,
    ?_, ?_⟩
  · exact (readAs_of_written readable.written.disjunction).of_anchored c.anchored_anchored
  · intro less unwraps
    rcases (readable.loose 0).unwrapped less.toList unwraps with ⟨other, written⟩
    rw [String.ofList_toList] at written
    refine ⟨other, readAs_of_written written, fun same => ?_⟩
    have enough := written.parentheses_le
    have fewer := unwraps.count
    rw [Condition.parentheses, ← Condition.printed_anchored, same, Condition.printed_anchored,
      opened, opened] at enough
    omega

/-- Without its parentheses a negated disjunction is read as a disjunction. -/
theorem parentheses_needed_negation :
    ∃ other, ReadAs "!neighborhood(a) == 1 | neighborhood(b) == 2" other ∧
      other.anchored ≠ .not (.any [.test ⟨.equal, ⟨"a", some .start⟩, 1⟩,
        .test ⟨.equal, ⟨"b", some .start⟩, 2⟩]) := by
  have readable : Condition.Readable (.not (.any [.test ⟨.equal, ⟨"a", some .start⟩, 1⟩,
      .test ⟨.equal, ⟨"b", some .start⟩, 2⟩])) :=
    ⟨Nat.le_refl 2, ⟨'a', [], rfl, rfl, nofun⟩, ⟨'b', [], rfl, rfl, nofun⟩, trivial⟩
  rcases parentheses_needed readable with ⟨text, printed, _, needed⟩
  have written : text = "!(neighborhood(a) == 1 | neighborhood(b) == 2)" := by
    rw [Condition.print_eq (fun _ => rfl) readable.printable] at printed
    exact (Except.ok.inj printed).symm.trans rfl
  subst written
  have unwraps : Unwraps "!(neighborhood(a) == 1 | neighborhood(b) == 2)".toList
      "!neighborhood(a) == 1 | neighborhood(b) == 2".toList :=
    ⟨['!'], "neighborhood(a) == 1 | neighborhood(b) == 2".toList, [], by decide +kernel,
      by decide +kernel, by decide +kernel, by decide⟩
  exact needed _ unwraps

end Cellular
