import Cellular.Proofs.Source.Parentheses
import Cellular.Proofs.Source.Printing

/-!
# Conditions without their parentheses

Where an operand stands in a condition, any condition may stand: what is written is still a
condition, although it may be another one, since the operators of both now bind anew. A printed
condition therefore remains a condition when a pair of parentheses that group is taken out of
it, whichever pair that is.
-/

namespace Cellular

/-! ## Conditions instead of operands -/

namespace ConditionPhrase

/-- One more operand behind a disjunction belongs to its last alternative. -/
theorem conjoin {before tokens : List Token} {ampersand : Token}
    {alternatives : List (Condition (CountTest Name))} {c : Condition (CountTest Name)}
    (first : ConditionPhrase before (.disjunction alternatives))
    (isAmpersand : ampersand.terminal = .mark .ampersand)
    (last : ConditionPhrase tokens (.operand c)) :
    ∃ others, ConditionPhrase (before ++ [ampersand] ++ tokens) (.disjunction others) := by
  cases first with
  | alternative operands => exact ⟨_, .alternative (.operands operands isAmpersand last)⟩
  | alternatives earlier isBar operands =>
      have whole := earlier.alternatives isBar (.operands operands isAmpersand last)
      simp only [← List.append_assoc] at whole
      exact ⟨_, whole⟩

/-- What makes a condition of every operand behind it makes one of every condition. -/
theorem behind {start : List Token}
    (operand : ∀ tokens c, ConditionPhrase tokens (.operand c) →
      ∃ others, ConditionPhrase (start ++ tokens) (.disjunction others))
    {tokens : List Token} {reading : Reading} (phrase : ConditionPhrase tokens reading) :
    ∃ others, ConditionPhrase (start ++ tokens) (.disjunction others) := by
  induction phrase with
  | alternative _ ih => exact ih
  | alternatives _ isBar last ih =>
      rcases ih with ⟨others, earlier⟩
      have whole := earlier.alternatives isBar last
      simp only [List.append_assoc] at whole ⊢
      exact ⟨_, whole⟩
  | operand _ ih => exact ih
  | operands _ isAmpersand last ih =>
      rcases ih with ⟨others, earlier⟩
      rcases earlier.conjoin isAmpersand last with ⟨further, whole⟩
      simp only [List.append_assoc] at whole ⊢
      exact ⟨_, whole⟩
  | negation isBang inner => exact operand _ _ (.negation isBang inner)
  | parentheses opens inner closes => exact operand _ _ (.parentheses opens inner closes)
  | test isWord opens isName closes isSymbol known isBound =>
      exact operand _ _ (.test isWord opens isName closes isSymbol known isBound)

end ConditionPhrase

/-- A text that is written from the tokens of a condition. -/
def IsCondition (text : String) : Prop :=
  ∃ c, Written DisjunctionPhrase c text

namespace IsCondition

variable {first second text : String}

/-- Two conditions with an operator between them. -/
theorem operator (before : IsCondition first) (after : IsCondition second) {m : Mark}
    (operates : m = .ampersand ∨ m = .bar) :
    IsCondition (first ++ (" " ++ m.text ++ " ") ++ second) := by
  rcases before with ⟨_, start, ⟨alternatives, disjunction, rfl⟩, spelled, writes⟩
  rcases after with ⟨_, tokens, ⟨_, phrase, rfl⟩, spelled', writes'⟩
  have operand : ∀ tokens c, ConditionPhrase tokens (.operand c) → ∃ others,
      ConditionPhrase (start ++ [m.token] ++ tokens) (.disjunction others) := by
    intro tokens c last
    rcases operates with rfl | rfl
    · exact disjunction.conjoin rfl last
    · exact ⟨_, disjunction.alternatives rfl (.operand last)⟩
  rcases phrase.behind operand with ⟨others, whole⟩
  exact ⟨_, _, ⟨others, whole, rfl⟩, spelled.separated m spelled', writes.around writes' m⟩

theorem negated (condition : IsCondition text) : IsCondition ("!" ++ text) := by
  rcases condition with ⟨_, tokens, ⟨_, phrase, rfl⟩, spelled, writes⟩
  have operand : ∀ tokens c, ConditionPhrase tokens (.operand c) → ∃ others,
      ConditionPhrase ([Mark.bang.token] ++ tokens) (.disjunction others) :=
    fun tokens c inner => ⟨_, .alternative (.operand (.negation rfl inner))⟩
  rcases phrase.behind operand with ⟨others, whole⟩
  exact ⟨_, _, ⟨others, whole, rfl⟩, AllSpelled.cons_iff.mpr ⟨rfl, spelled⟩,
    writes.opened (m := .bang) nofun⟩

theorem enclosed (condition : IsCondition text) : IsCondition ("(" ++ text ++ ")") := by
  rcases condition with ⟨c, written⟩
  exact ⟨c, written.parentheses.conjunction.disjunction⟩

end IsCondition

/-! ## Texts that stay conditions -/

/-- A condition that is still one without any pair of parentheses that group. -/
structure Loose (text : String) : Prop where
  balanced : Balanced text.toList
  condition : IsCondition text
  unwrapped : ∀ less, Unwraps text.toList less → IsCondition (String.ofList less)

namespace Loose

variable {first second text : String}

theorem operator (before : Loose first) (after : Loose second) {m : Mark}
    (operates : m = .ampersand ∨ m = .bar) :
    Loose (first ++ (" " ++ m.text ++ " ") ++ second) := by
  have unopened : '(' ∉ (" " ++ m.text ++ " ").toList := by
    rcases operates with rfl | rfl <;> decide
  have unclosed : ')' ∉ (" " ++ m.text ++ " ").toList := by
    rcases operates with rfl | rfl <;> decide
  have start : Balanced (first ++ (" " ++ m.text ++ " ")).toList := by
    rw [String.toList_append]
    exact before.balanced.append (.of_notMem unopened unclosed)
  constructor
  · rw [String.toList_append]
    exact start.append after.balanced
  · exact before.condition.operator after.condition operates
  · intro less unwraps
    rw [String.toList_append] at unwraps
    rcases unwraps.of_append start with ⟨part, inFirst, rfl⟩ | ⟨part, inSecond, rfl⟩
    · rw [String.toList_append] at inFirst
      rcases inFirst.of_append before.balanced with ⟨rest, within, rfl⟩ | ⟨rest, between, _⟩
      · have whole := (before.unwrapped rest within).operator after.condition operates
        rwa [String.ofList_append, String.ofList_append, String.ofList_toList,
          String.ofList_toList]
      · exact absurd between.mem unopened
    · have whole := before.condition.operator (after.unwrapped part inSecond) operates
      rwa [String.ofList_append, String.ofList_toList]

theorem negated (loose : Loose text) : Loose ("!" ++ text) := by
  have start : Balanced "!".toList := .of_notMem (by decide) (by decide)
  constructor
  · rw [String.toList_append]
    exact start.append loose.balanced
  · exact loose.condition.negated
  · intro less unwraps
    rw [String.toList_append] at unwraps
    rcases unwraps.of_append start with ⟨part, inFirst, _⟩ | ⟨part, inText, rfl⟩
    · exact absurd inFirst.mem (by decide)
    · rw [String.ofList_append, String.ofList_toList]
      exact (loose.unwrapped part inText).negated

theorem enclosed (loose : Loose text) : Loose ("(" ++ text ++ ")") := by
  have chars : ∀ inner : String, ("(" ++ inner ++ ")").toList = '(' :: (inner.toList ++ [')']) := by
    simp
  constructor
  · rw [chars]
    exact loose.balanced.enclosed
  · exact loose.condition.enclosed
  · intro less unwraps
    rw [chars] at unwraps
    rcases unwraps.of_enclosed loose.balanced with rfl | ⟨part, inText, rfl⟩
    · rw [String.ofList_toList]
      exact loose.condition
    · have whole := (loose.unwrapped part inText).enclosed
      have same : String.ofList ('(' :: (part ++ [')'])) = "(" ++ String.ofList part ++ ")" := by
        rw [← String.toList_inj, chars, String.toList_ofList, String.toList_ofList]
      rwa [same]

/-- Loose texts with an operator between every two. -/
theorem intercalate {m : Mark} (operates : m = .ampersand ∨ m = .bar) {texts : List String}
    (nonempty : texts ≠ []) (each : ∀ text ∈ texts, Loose text) :
    Loose ((" " ++ m.text ++ " ").intercalate texts) := by
  induction texts with
  | nil => exact absurd rfl nonempty
  | cons first others ih =>
      rcases List.forall_mem_cons.mp each with ⟨loose, rest⟩
      rcases others with _ | ⟨second, others⟩
      · rwa [String.intercalate_singleton]
      · rw [String.intercalate_cons_cons]
        exact loose.operator (ih (List.cons_ne_nil _ _) rest) operates

end Loose

/-! ### Tests -/

/-- A test behind its first parenthesis. -/
def CountTest.argument (a : CountTest Name) : List Char :=
  a.state.text.toList ++ ')' :: (" " ++ a.comparison.symbol ++ " " ++ toString a.bound).toList

namespace CountTest

variable {a : CountTest Name}

theorem toList_text (a : CountTest Name) :
    a.text.toList = Keyword.neighborhood.text.toList ++ '(' :: a.argument := by
  have parts : a.text = Keyword.neighborhood.text ++ "(" ++ a.state.text ++ ") " ++
      a.comparison.symbol ++ " " ++ toString a.bound := rfl
  simp [parts, argument]

private theorem notMem_comparison (a : CountTest Name) {c : Char}
    (isParenthesis : c = '(' ∨ c = ')') :
    c ∉ (" " ++ a.comparison.symbol ++ " " ++ toString a.bound).toList := by
  have bound : c ∉ (toString a.bound).toList := by
    have spelled : Terminal.integer.Spells (toString a.bound).toList := integerToken_spelled a.bound
    rcases isParenthesis with rfl | rfl <;> exact spelled.notMem_of_integer (by decide) (by decide)
  have symbol : c ∉ (" " ++ a.comparison.symbol ++ " ").toList := by
    rcases isParenthesis with rfl | rfl <;> cases a.comparison <;> decide
  rw [String.toList_append]
  exact List.not_mem_append symbol bound

private theorem notMem_state (isName : a.state.Spelled) {c : Char}
    (isParenthesis : c = '(' ∨ c = ')') : c ∉ a.state.text.toList := by
  rcases isParenthesis with rfl | rfl <;>
    exact Terminal.Spells.notMem_of_name isName (by decide) (by decide)

/-- A test has no other parenthesis that opens. -/
theorem notMem_argument (isName : a.state.Spelled) : '(' ∉ a.argument := by
  apply List.not_mem_append (notMem_state isName (.inl rfl))
  exact List.not_mem_cons_of_ne_of_not_mem (by decide) (notMem_comparison a (.inl rfl))

theorem balanced_text (isName : a.state.Spelled) : Balanced a.text.toList := by
  have word : Balanced Keyword.neighborhood.text.toList := .of_notMem (by decide) (by decide)
  have state : Balanced a.state.text.toList :=
    .of_notMem (notMem_state isName (.inl rfl)) (notMem_state isName (.inr rfl))
  have comparison := Balanced.of_notMem (notMem_comparison a (.inl rfl))
    (notMem_comparison a (.inr rfl))
  have whole := word.append (state.enclosed.append comparison)
  rw [toList_text, argument]
  simpa using whole

theorem loose_text (isName : a.state.Spelled) : Loose a.text where
  balanced := balanced_text isName
  condition := ⟨_, (test_written isName).conjunction.disjunction⟩
  unwrapped less unwraps := by
    rw [toList_text] at unwraps
    exact absurd unwraps (Unwraps.not_call (notMem_argument isName))

end CountTest

/-! ### Printed conditions -/

namespace Condition

private theorem loose_operands {m : Mark} (operates : m = .ampersand ∨ m = .bar) {outer : Int}
    {cs : List (Condition (CountTest Name))} (several : 2 ≤ cs.length)
    (each : ∀ c ∈ cs, Loose (c.printed CountTest.text outer)) :
    Loose ((" " ++ m.text ++ " ").intercalate (printedAll CountTest.text outer cs)) := by
  have nonempty : cs ≠ [] := List.ne_nil_of_length_pos (by omega)
  rw [printedAll_eq]
  apply Loose.intercalate operates
  · exact mt List.map_eq_nil_iff.mp nonempty
  · exact List.forall_mem_map.mpr each

/-- The printed form of a condition stays one without any of its pairs. -/
theorem Readable.loose {c : Condition (CountTest Name)} (readable : c.Readable) (outer : Int) :
    Loose (c.printed CountTest.text outer) := by
  have enclosed : ∀ {text : String} (needed : Bool), Loose text → Loose (enclosed needed text) := by
    intro text needed loose
    cases needed with
    | false => exact loose
    | true => exact loose.enclosed
  induction c using inductOn generalizing outer with
  | test a => exact CountTest.loose_text readable
  | always => exact readable.elim
  | not c ih => exact enclosed _ (ih readable 2).negated
  | all cs ih =>
      rcases readable with ⟨several, operands⟩
      rw [readableAll_iff] at operands
      exact enclosed _ (loose_operands (.inl rfl) several
        fun c member => ih c member (operands c member) 2)
  | any cs ih =>
      rcases readable with ⟨several, operands⟩
      rw [readableAll_iff] at operands
      exact enclosed _ (loose_operands (.inr rfl) several
        fun c member => ih c member (operands c member) 1)

end Condition

end Cellular
