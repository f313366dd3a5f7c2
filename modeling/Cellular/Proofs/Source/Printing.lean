import Cellular.Proofs.Condition.Printed
import Cellular.Proofs.Source.Readable
import Cellular.Proofs.Source.Written
import Cellular.Source.Printer

/-!
# What is printed is written from a sentence

The printed form of every part of a program that can be read is written from the tokens of
a phrase, and the phrase stands for the part with its names at one place. For conditions
this says that the parentheses are those that the grammar asks for: an operand of a
conjunction is printed as an operand, an alternative of a disjunction as a conjunction.
-/

namespace Cellular

/-! ## Words -/

/-- The token of an integer. -/
def integerToken (n : Int) : Token :=
  ⟨.integer, toString n, .start⟩

theorem integerToken_ofNat (n : Nat) :
    (integerToken (.ofNat n)).text.toList = Nat.toDigits 10 n :=
  String.toList_ofList

theorem integerToken_negSucc (n : Nat) :
    (integerToken (.negSucc n)).text.toList = '-' :: Nat.toDigits 10 (n + 1) := by
  have signed : (integerToken (.negSucc n)).text =
      "-" ++ String.ofList (Nat.toDigits 10 (n + 1)) := rfl
  rw [signed, String.toList_append]
  exact congrArg ('-' :: ·) String.toList_ofList

theorem digits_are_digits (n : Nat) : ∀ c ∈ Nat.toDigits 10 n, c.isDigit = true :=
  fun _ member => Nat.isDigit_of_mem_toDigits (by omega) (by omega) member

theorem integerToken_spelled (n : Int) : (integerToken n).Spelled := by
  cases n with
  | ofNat n =>
      exact ⟨_, Or.inl (integerToken_ofNat n), Nat.toDigits_ne_nil, digits_are_digits n⟩
  | negSucc n =>
      exact ⟨_, Or.inr (integerToken_negSucc n), Nat.toDigits_ne_nil, digits_are_digits (n + 1)⟩

/-- An integer is the value of its written form. -/
theorem integerToken_toInt (n : Int) : (integerToken n).toInt = n := by
  cases n with
  | ofNat n =>
      rw [Token.toInt, integerToken_ofNat]
      split
      · rename_i digits signed
        have sign := digits_are_digits n '-' (signed ▸ List.mem_cons_self)
        exact absurd sign (by decide)
      · rw [Nat.ofDigitChars_ten_toDigits]
        rfl
  | negSucc n =>
      rw [Token.toInt, integerToken_negSucc]
      simp only [Nat.ofDigitChars_ten_toDigits]
      rfl

/-- The token of an axis, or of all axes. -/
def Name.axisToken (name : Name) : Token :=
  ⟨if name.text = Mark.star.text then .mark .star else .name, name.text, .start⟩

theorem Name.axisToken_isAxis (name : Name) : name.axisToken.IsAxis := by
  by_cases isStar : name.text = Mark.star.text
  · exact Or.inr (if_pos isStar)
  · exact Or.inl (if_neg isStar)

theorem Name.IsAxis.spelled {name : Name} (isAxis : name.IsAxis) : name.axisToken.Spelled := by
  rw [Token.Spelled, axisToken]
  split
  · rename_i isStar
    exact congrArg String.toList isStar
  · rename_i other
    exact isAxis.resolve_left other

/-- The token of a direction. -/
def Direction.token (direction : Direction) : Token :=
  ⟨direction.terminal, direction.symbol, .start⟩

theorem Direction.token_spelled (direction : Direction) : direction.token.Spelled := by
  cases direction <;> rfl

/-- The token of a comparison. -/
def Comparison.token (comparison : Comparison) : Token :=
  ⟨.comparison, comparison.symbol, .start⟩

theorem Comparison.ofSymbol?_symbol (comparison : Comparison) :
    ofSymbol? comparison.symbol = some comparison := by
  cases comparison <;> rfl

/-- The token of a key. -/
def Name.keyToken (name : Name) : Token :=
  ⟨if name.text = Keyword.neighborhood.text then .keyword .neighborhood else .name,
    name.text, .start⟩

theorem Name.keyToken_isKey (name : Name) : name.keyToken.IsKey := by
  by_cases isKeyword : name.text = Keyword.neighborhood.text
  · exact Or.inr (if_pos isKeyword)
  · exact Or.inl (if_neg isKeyword)

theorem Name.Spelled.keyToken {name : Name} (spelled : name.Spelled) : name.keyToken.Spelled := by
  rw [Token.Spelled, Name.keyToken]
  split
  · rename_i isKeyword
    exact congrArg String.toList isKeyword
  · exact spelled

/-- A key that is spelled like the keyword is read as the keyword. -/
theorem Name.keyToken_clear {name : Name} (isName : name.keyToken.terminal = .name) :
    name.text ≠ Keyword.neighborhood.text := by
  intro isKeyword
  simp [keyToken, isKeyword] at isName

/-! ## Environments, neighbourhoods and states -/

private theorem size_written {size : Name × Int} (isAxis : size.1.IsAxis) :
    Written SizePhrase (size.1.anchored, size.2) (size.1.text ++ " = " ++ toString size.2) := by
  have phrase : SizePhrase [size.1.axisToken, Mark.equal.token, integerToken size.2]
      (size.1.anchored, (integerToken size.2).toInt) :=
    .mk size.1.axisToken_isAxis rfl rfl
  rw [integerToken_toInt] at phrase
  have spelled : AllSpelled [size.1.axisToken, Mark.equal.token, integerToken size.2] := by
    simp only [AllSpelled.cons_iff]
    exact ⟨isAxis.spelled, rfl, integerToken_spelled size.2, nofun⟩
  have writes := (Writes.token size.1.axisToken).around (.token (integerToken size.2)) .equal
  exact ⟨_, phrase, spelled, writes⟩

/-- The token of a rank. -/
def rankToken (rank : Nat) : Token :=
  ⟨.dimensionality, toString rank ++ "D", .start⟩

private theorem rankToken_reads {rank : Nat} (known : rank = 1 ∨ rank = 2 ∨ rank = 3) :
    (rankToken rank).Spelled ∧ (rankToken rank).toRank = rank := by
  rcases known with rfl | rfl | rfl
  · exact ⟨⟨'1', by simp, rfl⟩, rfl⟩
  · exact ⟨⟨'2', by simp, rfl⟩, rfl⟩
  · exact ⟨⟨'3', by simp, rfl⟩, rfl⟩

theorem environment_written {space : Environment} (readable : space.Readable) :
    Written ValuePhrase (.environment space.anchored) space.text := by
  rcases space with ⟨rank, sizes⟩
  rcases readable with ⟨known, axes⟩
  rcases rankToken_reads known with ⟨spelled, value⟩
  by_cases none : sizes = []
  · subst none
    have phrase : ValuePhrase [rankToken rank] (.environment ⟨(rankToken rank).toRank, []⟩) :=
      .environment rfl
    rw [value] at phrase
    have text : (Environment.mk rank []).text = (rankToken rank).text := String.append_empty
    refine ⟨_, phrase, AllSpelled.cons_iff.mpr ⟨spelled, nofun⟩, ?_⟩
    rw [text]
    exact .token (rankToken rank)
  · have series : Written (Series Comma SizePhrase) _ _ := written_series (.mk rfl) none
      fun size member => size_written (axes size member)
    rcases series with ⟨tokens, series, inner, writes⟩
    have phrase : ValuePhrase
        ([rankToken rank, Mark.colons.token, Mark.openParen.token] ++ tokens ++
          [Mark.closeParen.token])
        (.environment ⟨(rankToken rank).toRank, sizesMap Name.anchored sizes⟩) :=
      .sizes rfl rfl rfl series rfl
    have text : (Environment.mk rank sizes).text = (rankToken rank).text ++ Mark.colons.text ++
        ("(" ++ ", ".intercalate (sizes.map fun size => size.1.text ++ " = " ++ toString size.2) ++
          ")") := by
      have opens : "::(" = Mark.colons.text ++ "(" := rfl
      simp [Environment.text, environmentText, rankToken, none, opens, String.append_assoc,
        Function.comp_def]
    rw [value] at phrase
    refine ⟨_, phrase, ?_, ?_⟩
    · simp only [AllSpelled.append_iff, AllSpelled.cons_iff]
      exact ⟨⟨⟨spelled, rfl, rfl, nofun⟩, inner⟩, rfl, nofun⟩
    · have whole := (Writes.token (rankToken rank)).mark writes.bracketed (m := .colons) trivial
      rw [text]
      simpa using whole

private theorem offset_written {rule : OffsetRule} (isAxis : rule.axis.IsAxis) :
    Written OffsetPhrase rule.anchored rule.text := by
  have phrase : OffsetPhrase
      [rule.axis.axisToken, rule.direction.token, integerToken rule.magnitude]
      ⟨rule.axis.anchored, rule.direction, (integerToken rule.magnitude).toInt⟩ :=
    .mk rule.axis.axisToken_isAxis rfl rfl
  rw [integerToken_toInt] at phrase
  refine ⟨_, phrase, ?_, ?_⟩
  · simp only [AllSpelled.cons_iff]
    exact ⟨isAxis.spelled, rule.direction.token_spelled, integerToken_spelled rule.magnitude, nofun⟩
  · have first := (Writes.token rule.axis.axisToken).blank (.token rule.direction.token)
      (c := ' ') rfl
    exact first.blank (.token (integerToken rule.magnitude)) (c := ' ') rfl

theorem neighborhood_written {shape : Neighborhood} (readable : shape.Readable) :
    Written ValuePhrase (.neighborhood shape.anchored) shape.text := by
  cases shape with
  | moore => exact written_keyword .moore (.moore rfl)
  | vonNeumann => exact written_keyword .vonNeumann (.vonNeumann rfl)
  | custom rules =>
      rcases readable with ⟨nonempty, axes, _⟩
      have series : Written (Series OptionalComma OffsetPhrase) _ _ :=
        written_series (.present rfl) nonempty fun rule member => offset_written (axes rule member)
      rcases series with ⟨tokens, series, inner, writes⟩
      exact ⟨_, .offsets rfl series rfl, inner.enclosed .openBrace .closeBrace, writes.braced⟩

theorem boundary_written {edge : Boundary (Option Name)}
    (readable : (Value.boundary edge).Readable) :
    Written ValuePhrase (.boundary edge.anchored) edge.declaredText := by
  cases edge with
  | void => exact written_keyword .void (.void rfl)
  | wrap => exact written_keyword .wrap (.wrap rfl)
  | static state =>
      cases state with
      | none => exact written_keyword .static (.static rfl)
      | some name =>
          refine ⟨[Keyword.static.token, Mark.colons.token, Mark.openParen.token, name.token,
            Mark.closeParen.token], .staticState rfl rfl rfl rfl rfl, ?_, ?_⟩
          · simp only [AllSpelled.cons_iff]
            exact ⟨rfl, rfl, rfl, readable, rfl, nofun⟩
          · exact (Writes.token Keyword.static.token).mark (Writes.token name.token).bracketed
              (m := .colons) trivial

private theorem attribute_written {mark : Attribute} (readable : mark.Readable) :
    Written AttributePhrase mark.anchored mark.text := by
  cases mark with
  | defaultMark => exact written_keyword .defaultWord (.defaultMark rfl)
  | keyed key token =>
      rcases readable with ⟨isKey, _, isToken⟩
      refine ⟨[key.token, Mark.openParen.token, token.token, Mark.closeParen.token],
        .keyed rfl rfl rfl rfl, ?_, ?_⟩
      · simp only [AllSpelled.cons_iff]
        exact ⟨isKey, rfl, isToken, rfl, nofun⟩
      · have opened := (Writes.token key.token).mark (.token token.token) (m := .openParen) trivial
        have closed := opened.mark .nil (m := .closeParen) trivial
        rw [List.append_nil, String.append_empty] at closed
        exact closed

theorem entry_written {entry : StateEntry} (readable : entry.Readable) :
    Written EntryPhrase entry.anchored entry.text := by
  rcases entry with ⟨name, marks⟩
  rcases readable with ⟨isName, marked⟩
  have several : 2 ≤ marks.length → Written AttributesPhrase (marks.map Attribute.anchored)
      ("(" ++ ", ".intercalate (marks.map Attribute.text) ++ ")") := by
    intro enough
    have nonempty : marks ≠ [] := fun none => absurd enough (by simp [none])
    have series : Written (Series Comma AttributePhrase) _ _ := written_series (.mk rfl) nonempty
      fun mark member => attribute_written (marked mark member)
    rcases series with ⟨tokens, series, inner, writes⟩
    exact ⟨_, .grouped rfl series rfl, inner.enclosed .openParen .closeParen, writes.bracketed⟩
  have behind : ∀ text, Written AttributesPhrase (marks.map Attribute.anchored) text →
      Written EntryPhrase (StateEntry.anchored ⟨name, marks⟩) (name.text ++ " :: " ++ text) := by
    rintro text ⟨tokens, phrase, spelled, writes⟩
    refine ⟨[name.token, Mark.colons.token] ++ tokens, .marked rfl rfl phrase, ?_,
      (Writes.token name.token).around writes .colons⟩
    simp only [AllSpelled.append_iff, AllSpelled.cons_iff]
    exact ⟨⟨isName, rfl, nofun⟩, spelled⟩
  rcases marks with _ | ⟨first, _ | ⟨second, rest⟩⟩
  · exact ⟨[name.token], .plain rfl, AllSpelled.cons_iff.mpr ⟨isName, nofun⟩, .token name.token⟩
  · have alone := attribute_written (marked first List.mem_cons_self)
    exact behind first.text (alone.imp fun _ phrase => .alone phrase)
  · have grouped := behind _ (several (by simp))
    have opens : " :: (" = " :: " ++ "(" := rfl
    simpa only [StateEntry.text, stateText, List.map_cons, opens, String.append_assoc] using grouped

/-! ## Conditions -/

/-- The tokens of an operand. -/
def OperandPhrase (tokens : List Token) (c : Condition (CountTest Name)) : Prop :=
  ConditionPhrase tokens (.operand c)

/-- The tokens of a conjunction, or of an operand. -/
def ConjunctionPhrase (tokens : List Token) (c : Condition (CountTest Name)) : Prop :=
  ∃ operands, ConditionPhrase tokens (.conjunction operands) ∧ gathered .all operands = c

/-- The tokens of a disjunction, or of a conjunction. -/
def DisjunctionPhrase (tokens : List Token) (c : Condition (CountTest Name)) : Prop :=
  ∃ alternatives, ConditionPhrase tokens (.disjunction alternatives) ∧
    gathered .any alternatives = c

theorem Written.conjunction {c : Condition (CountTest Name)} {text : String}
    (written : Written OperandPhrase c text) : Written ConjunctionPhrase c text :=
  written.imp fun _ phrase => ⟨[c], .operand phrase, rfl⟩

theorem Written.disjunction {c : Condition (CountTest Name)} {text : String}
    (written : Written ConjunctionPhrase c text) : Written DisjunctionPhrase c text := by
  apply written.imp
  rintro tokens ⟨operands, phrase, rfl⟩
  exact ⟨[gathered .all operands], .alternative phrase, rfl⟩

theorem Written.parentheses {c : Condition (CountTest Name)} {text : String}
    (written : Written DisjunctionPhrase c text) :
    Written OperandPhrase c ("(" ++ text ++ ")") := by
  rcases written with ⟨tokens, ⟨alternatives, phrase, rfl⟩, spelled, writes⟩
  exact ⟨_, .parentheses rfl phrase rfl, spelled.enclosed .openParen .closeParen, writes.bracketed⟩

theorem gathered_of_two_le {node : List (Condition (CountTest Name)) → Condition (CountTest Name)}
    {operands : List (Condition (CountTest Name))} (several : 2 ≤ operands.length) :
    gathered node operands = node operands := by
  rcases operands with _ | ⟨first, _ | ⟨second, rest⟩⟩
  · rfl
  · exact absurd several (by simp)
  · rfl

theorem test_written {a : CountTest Name} (isName : a.state.Spelled) :
    Written OperandPhrase (.test ⟨a.comparison, a.state.anchored, a.bound⟩) a.text := by
  have phrase : OperandPhrase [Keyword.neighborhood.token, Mark.openParen.token, a.state.token,
      Mark.closeParen.token, a.comparison.token, integerToken a.bound]
      (.test ⟨a.comparison, a.state.anchored, (integerToken a.bound).toInt⟩) :=
    .test rfl rfl rfl rfl rfl a.comparison.ofSymbol?_symbol rfl
  rw [integerToken_toInt] at phrase
  refine ⟨_, phrase, ?_, ?_⟩
  · simp only [AllSpelled.cons_iff]
    exact ⟨rfl, rfl, isName, rfl, ⟨a.comparison, rfl⟩, integerToken_spelled a.bound, nofun⟩
  · have opened := (Writes.token Keyword.neighborhood.token).mark (.token a.state.token)
      (m := .openParen) trivial
    have compared := (Writes.token a.comparison.token).blank (.token (integerToken a.bound))
      (c := ' ') rfl
    have whole := opened.mark (compared.leading (c := ' ') rfl) (m := .closeParen) trivial
    have opens : "neighborhood(" = Keyword.neighborhood.token.text ++ Mark.openParen.text := rfl
    have closes : ") " = Mark.closeParen.text ++ " " := rfl
    have blank : String.singleton ' ' = " " := rfl
    simp only [blank, String.append_assoc] at whole
    change Writes _ ("neighborhood(" ++ toString a.state ++ ") " ++ a.comparison.symbol ++ " " ++
      toString a.bound)
    simp only [opens, closes, String.append_assoc]
    exact whole

theorem operands_written {cs : List (Condition (CountTest Name))} {text : _ → String}
    (several : 2 ≤ cs.length) (each : ∀ c ∈ cs, Written OperandPhrase c.anchored (text c)) :
    Written ConjunctionPhrase (.all (cs.map Condition.anchored))
      (" & ".intercalate (cs.map text)) := by
  have listed : Written (fun tokens operands => ConditionPhrase tokens (.conjunction operands))
      (cs.map Condition.anchored) (" & ".intercalate (cs.map text)) := by
    apply written_intercalate _ _ (List.ne_nil_of_length_pos (by omega)) each
    · rintro c text written
      exact written.imp fun _ phrase => .operand phrase
    · rintro items c before text ⟨first, operands, spelled, writes⟩
        ⟨last, phrase, spelled', writes'⟩
      exact ⟨_, .operands operands rfl phrase, spelled.separated .ampersand spelled',
        writes.around writes' .ampersand⟩
  apply listed.imp
  intro tokens phrase
  exact ⟨_, phrase, gathered_of_two_le (by rwa [List.length_map])⟩

theorem alternatives_written {cs : List (Condition (CountTest Name))} {text : _ → String}
    (several : 2 ≤ cs.length) (each : ∀ c ∈ cs, Written ConjunctionPhrase c.anchored (text c)) :
    Written DisjunctionPhrase (.any (cs.map Condition.anchored))
      (" | ".intercalate (cs.map text)) := by
  have listed : Written (fun tokens operands => ConditionPhrase tokens (.disjunction operands))
      (cs.map Condition.anchored) (" | ".intercalate (cs.map text)) := by
    apply written_intercalate _ _ (List.ne_nil_of_length_pos (by omega)) each
    · rintro c text written
      apply written.imp
      rintro tokens ⟨operands, phrase, rfl⟩
      exact .alternative phrase
    · rintro items c before text ⟨first, earlier, spelled, writes⟩
        ⟨last, ⟨operands, phrase, rfl⟩, spelled', writes'⟩
      exact ⟨_, .alternatives earlier rfl phrase, spelled.separated .bar spelled',
        writes.around writes' .bar⟩
  apply listed.imp
  intro tokens phrase
  exact ⟨_, phrase, gathered_of_two_le (by rwa [List.length_map])⟩

theorem negation_written {c : Condition (CountTest Name)} {text : String}
    (written : Written OperandPhrase c.anchored text) :
    Written OperandPhrase (Condition.not c).anchored ("!" ++ text) := by
  rcases written with ⟨tokens, phrase, spelled, writes⟩
  exact ⟨[Mark.bang.token] ++ tokens, .negation rfl phrase,
    AllSpelled.cons_iff.mpr ⟨rfl, spelled⟩, writes.opened (m := .bang) nofun⟩

/-- The written forms of a condition, as the grammar asks for them. -/
structure Condition.IsWritten (c : Condition (CountTest Name)) : Prop where
  disjunction : Written DisjunctionPhrase c.anchored (c.printed CountTest.text 0)
  conjunction : Written ConjunctionPhrase c.anchored (c.printed CountTest.text 1)
  operand : Written OperandPhrase c.anchored (c.printed CountTest.text 2)

theorem Condition.Readable.written {c : Condition (CountTest Name)} (readable : c.Readable) :
    c.IsWritten := by
  induction c using inductOn with
  | test a =>
      have operand := test_written readable
      exact ⟨operand.conjunction.disjunction, operand.conjunction, operand⟩
  | always => exact readable.elim
  | not c ih =>
      have operand := negation_written (ih readable).operand
      exact ⟨operand.conjunction.disjunction, operand.conjunction, operand⟩
  | all cs ih =>
      rcases readable with ⟨several, operands⟩
      rw [readableAll_iff] at operands
      have conjunction := operands_written several fun c member =>
        (ih c member (operands c member)).operand
      rw [← mapList_eq, ← printedAll_eq] at conjunction
      exact ⟨conjunction.disjunction, conjunction, conjunction.disjunction.parentheses⟩
  | any cs ih =>
      rcases readable with ⟨several, operands⟩
      rw [readableAll_iff] at operands
      have disjunction := alternatives_written several fun c member =>
        (ih c member (operands c member)).conjunction
      rw [← mapList_eq, ← printedAll_eq] at disjunction
      exact ⟨disjunction, disjunction.parentheses.conjunction, disjunction.parentheses⟩

end Cellular
