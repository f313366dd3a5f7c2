import Cellular.Proofs.Source.Grammar
import Cellular.Proofs.Source.Reading

/-!
# Every accepted text is a sentence

A place explains the tokens that lead to it: the finished parts that it keeps are read from
phrases, and what comes behind them is the beginning of another phrase. A step appends its
token, and where a part is finished it completes a phrase. So at the end of a text the
tokens are a sentence.
-/

namespace Cellular

/-! ## Unfinished lists -/

section Lists

variable {α : Type}

/-- The beginning of a list: nothing, or some phrases with a separator behind them. -/
inductive Pending (phrases : List Token → List α → Prop) (separator : List Token → Prop) :
    List Token → List α → Prop where
  | none : Pending phrases separator [] []
  | some {before between : List Token} {items : List α} :
      phrases before items → separator between → Pending phrases separator (before ++ between) items

theorem Pending.snoc {separator : List Token → Prop} {phrase : List Token → α → Prop}
    {before tokens : List Token} {items : List α} {item : α}
    (pending : Pending (Series separator phrase) separator before items)
    (last : phrase tokens item) : Series separator phrase (before ++ tokens) (items ++ [item]) := by
  cases pending with
  | none => exact .single last
  | some series between => exact .snoc series between last

end Lists

/-! ## Unfinished conditions -/

/-- A bar, which stands between alternatives. -/
inductive Bar : List Token → Prop where
  | mk {bar : Token} : bar.terminal = .mark .bar → Bar [bar]

/-- An ampersand, which stands between operands. -/
inductive Ampersand : List Token → Prop where
  | mk {ampersand : Token} : ampersand.terminal = .mark .ampersand → Ampersand [ampersand]

/-- The tokens of alternatives with bars between them. -/
def IsDisjunction (tokens : List Token) (cs : List (Condition (CountTest Name))) : Prop :=
  ConditionPhrase tokens (.disjunction cs)

/-- The tokens of operands with ampersands between them. -/
def IsConjunction (tokens : List Token) (cs : List (Condition (CountTest Name))) : Prop :=
  ConditionPhrase tokens (.conjunction cs)

theorem Pending.conjunction {before tokens : List Token} {items : List (Condition (CountTest Name))}
    (pending : Pending IsConjunction Ampersand before items) {c : Condition (CountTest Name)}
    (last : ConditionPhrase tokens (.operand c)) :
    IsConjunction (before ++ tokens) (items ++ [c]) := by
  cases pending with
  | none => exact .operand last
  | some earlier between =>
      cases between with
      | mk isAmpersand => exact .operands earlier isAmpersand last

theorem Pending.disjunction {before tokens : List Token} {items : List (Condition (CountTest Name))}
    (pending : Pending IsDisjunction Bar before items)
    {operands : List (Condition (CountTest Name))}
    (last : IsConjunction tokens operands) :
    IsDisjunction (before ++ tokens) (items ++ [gathered .all operands]) := by
  cases pending with
  | none => exact .alternative last
  | some earlier between =>
      cases between with
      | mk isBar => exact .alternatives earlier isBar last

theorem joined_eq_gathered (node : List (Condition (CountTest Name)) → Condition (CountTest Name))
    (operands : List (Condition (CountTest Name))) :
    joined node operands = gathered node operands.reverse := by
  rcases operands with _ | ⟨first, _ | ⟨second, rest⟩⟩
  · rfl
  · rfl
  · rw [joined, gathered]
    · exact fun _ single => absurd (congrArg List.length single) (by simp)
    · exact fun _ single => absurd (congrArg List.length single) (by simp)

namespace Level

/-- The tokens before an operand. -/
def Explains (level : Level) (tokens : List Token) : Prop :=
  ∃ before inner bangs, tokens = before ++ inner ++ bangs ∧
    Pending IsDisjunction Bar before level.alternatives.reverse ∧
    Pending IsConjunction Ampersand inner level.conjuncts.reverse ∧
    bangs.length = level.negations ∧ ∀ bang ∈ bangs, bang.terminal = .mark .bang

/-- The tokens up to the end of an operand. -/
def Ends (level : Level) (tokens : List Token) : Prop :=
  level.negations = 0 ∧ ∃ before inner, tokens = before ++ inner ∧
    Pending IsDisjunction Bar before level.alternatives.reverse ∧
    IsConjunction inner level.conjuncts.reverse

theorem explains_empty : ({} : Level).Explains [] :=
  ⟨[], [], [], rfl, .none, .none, rfl, by simp⟩

theorem Explains.negate {level : Level} {tokens : List Token} (explains : level.Explains tokens)
    {bang : Token} (isBang : bang.terminal = .mark .bang) :
    level.negate.Explains (tokens ++ [bang]) := by
  rcases explains with ⟨before, inner, bangs, rfl, alternatives, conjuncts, length, each⟩
  refine ⟨before, inner, bangs ++ [bang], by simp, alternatives, conjuncts, ?_, ?_⟩
  · rw [List.length_append, length]
    rfl
  · exact List.forall_mem_append.mpr ⟨each, List.forall_mem_singleton.mpr isBang⟩

private theorem negated_phrase {bangs tokens : List Token} {c : Condition (CountTest Name)}
    (each : ∀ bang ∈ bangs, bang.terminal = .mark .bang)
    (phrase : ConditionPhrase tokens (.operand c)) :
    ConditionPhrase (bangs ++ tokens) (.operand (negated bangs.length c)) := by
  induction bangs with
  | nil => exact phrase
  | cons bang bangs ih =>
      rcases List.forall_mem_cons.mp each with ⟨isBang, others⟩
      exact .negation isBang (ih others)

theorem Explains.operand {level : Level} {own tokens : List Token} (explains : level.Explains own)
    {c : Condition (CountTest Name)} (phrase : ConditionPhrase tokens (.operand c)) :
    (level.operand c).Ends (own ++ tokens) := by
  rcases explains with ⟨before, inner, bangs, rfl, alternatives, conjuncts, length, each⟩
  refine ⟨rfl, before, inner ++ (bangs ++ tokens), by simp, alternatives, ?_⟩
  have last := negated_phrase each phrase
  rw [length] at last
  change IsConjunction _ (negated level.negations c :: level.conjuncts).reverse
  rw [List.reverse_cons]
  exact conjuncts.conjunction last

/-- What is closed at the end of an operand is a whole disjunction. -/
theorem Ends.close {level : Level} {tokens : List Token} (ends : level.Ends tokens) :
    ∃ alternatives, ConditionPhrase tokens (.disjunction alternatives) ∧
      level.close = gathered .any alternatives := by
  rcases ends with ⟨_, before, inner, rfl, alternatives, conjuncts⟩
  refine ⟨(joined .all level.conjuncts :: level.alternatives).reverse, ?_, joined_eq_gathered ..⟩
  rw [List.reverse_cons, joined_eq_gathered]
  exact alternatives.disjunction conjuncts

theorem Ends.conjunct {level : Level} {tokens : List Token} (ends : level.Ends tokens)
    {ampersand : Token} (isAmpersand : ampersand.terminal = .mark .ampersand) :
    level.Explains (tokens ++ [ampersand]) := by
  rcases ends with ⟨none_negated, before, inner, rfl, alternatives, conjuncts⟩
  exact ⟨before, inner ++ [ampersand], [], by simp, alternatives,
    .some conjuncts (.mk isAmpersand), none_negated.symm, by simp⟩

theorem Ends.alternative {level : Level} {tokens : List Token} (ends : level.Ends tokens)
    {bar : Token} (isBar : bar.terminal = .mark .bar) :
    level.alternative.Explains (tokens ++ [bar]) := by
  rcases ends with ⟨none_negated, before, inner, rfl, alternatives, conjuncts⟩
  refine ⟨before ++ inner ++ [bar], [], [], by simp, ?_, .none, none_negated.symm, by simp⟩
  change Pending IsDisjunction Bar _ (joined .all level.conjuncts :: level.alternatives).reverse
  rw [List.reverse_cons, joined_eq_gathered]
  exact .some (alternatives.disjunction conjuncts) (.mk isBar)

end Level

/-- The tokens of the levels that enclose an operand, each with the bracket behind it. -/
inductive Enclosed : List Level → List Token → Prop where
  | nil : Enclosed [] []
  | cons {level : Level} {outer : List Level} {before own : List Token} {opened : Token} :
      Enclosed outer before → level.Explains own → opened.terminal = .mark .openParen →
        Enclosed (level :: outer) (before ++ own ++ [opened])

/-! ## What a place explains -/

/-- The tokens up to the value of a declaration. -/
def Opening.Explains (opening : Opening) (tokens : List Token) : Prop :=
  ∃ before key assign, tokens = before ++ [key, assign] ∧
    Sentence before opening.earlier.reverse ∧ key.IsKey ∧ key.toName = opening.key ∧
    assign.terminal = .mark .assign

/-- The tokens up to the sizes of an environment. -/
def SizesHead (opening : Opening) (r : Nat) (tokens : List Token) : Prop :=
  ∃ before rank colons opened, tokens = before ++ [rank, colons, opened] ∧
    opening.Explains before ∧ rank.terminal = .dimensionality ∧ rank.toRank = r ∧
    colons.terminal = .mark .colons ∧ opened.terminal = .mark .openParen

/-- The tokens up to the inside of a block. -/
def BlockHead (opening : Opening) (tokens : List Token) : Prop :=
  ∃ before opened, tokens = before ++ [opened] ∧ opening.Explains before ∧
    opened.terminal = .mark .openBrace

/-- The tokens up to an offset rule. -/
def OffsetsHead (opening : Opening) (rules : List OffsetRule) (tokens : List Token) : Prop :=
  ∃ before inner, tokens = before ++ inner ∧ BlockHead opening before ∧
    Pending (Series OptionalComma OffsetPhrase) OptionalComma inner rules.reverse

/-- The tokens up to the name of a state. -/
def StateHead (entry : OpenState) (tokens : List Token) : Prop :=
  ∃ before inner name, tokens = before ++ inner ++ [name] ∧ BlockHead entry.opening before ∧
    Pending (Series NoSeparator EntryPhrase) NoSeparator inner entry.earlier.reverse ∧
    name.terminal = .name ∧ name.toName = entry.name

/-- The tokens up to the end of a state with its attributes. -/
def EntriesHead (opening : Opening) (entries : List StateEntry) (tokens : List Token) : Prop :=
  ∃ before inner, tokens = before ++ inner ∧ BlockHead opening before ∧
    Series NoSeparator EntryPhrase inner entries.reverse

/-- The tokens up to an attribute. -/
def AttributesHead (entry : OpenState) (tokens : List Token) : AttributeList → Prop
  | .alone => ∃ before colons, tokens = before ++ [colons] ∧ StateHead entry before ∧
      colons.terminal = .mark .colons
  | .grouped finished => ∃ before colons opened inner,
      tokens = before ++ [colons, opened] ++ inner ∧ StateHead entry before ∧
      colons.terminal = .mark .colons ∧ opened.terminal = .mark .openParen ∧
      Pending (Series Comma AttributePhrase) Comma inner finished.reverse

/-- The tokens up to a rule. -/
def RulesHead (opening : Opening) (rules : List (Rule Name)) (tokens : List Token) : Prop :=
  ∃ before inner, tokens = before ++ inner ∧ BlockHead opening before ∧
    Repeated RulePhrase inner rules.reverse

/-- The tokens up to the condition of a rule. -/
def OpenRule.Explains (rule : OpenRule) (tokens : List Token) : Prop :=
  ∃ before origin source into target assign,
    tokens = before ++ [origin, source, into, target, assign] ∧
    RulesHead rule.opening rule.earlier before ∧ origin.terminal = .keyword .fromWord ∧
    source.terminal = .name ∧ source.toName = rule.source ∧ into.terminal = .keyword .toWord ∧
    target.terminal = .name ∧ target.toName = rule.target ∧ assign.terminal = .mark .assign

/-- The tokens up to an operand of a condition. -/
def OperandHead (rule : OpenRule) (tokens : List Token) : Prop :=
  ∃ before outer own, tokens = before ++ outer ++ own ∧ rule.Explains before ∧
    Enclosed rule.outer outer ∧ rule.level.Explains own

namespace Place

/-- The tokens that lead to a place. -/
def Explains (tokens : List Token) : Place → Prop
  | between finished => Sentence tokens finished.reverse
  | key opening => ∃ before key, tokens = before ++ [key] ∧
      Sentence before opening.earlier.reverse ∧ key.IsKey ∧ key.toName = opening.key
  | value opening => opening.Explains tokens
  | rank opening r => ∃ head rank, tokens = head ++ [rank] ∧ opening.Explains head ∧
      rank.terminal = .dimensionality ∧ rank.toRank = r
  | sizesOpen opening r => ∃ head rank colons, tokens = head ++ [rank, colons] ∧
      opening.Explains head ∧ rank.terminal = .dimensionality ∧ rank.toRank = r ∧
      colons.terminal = .mark .colons
  | size opening r sizes => ∃ head inner, tokens = head ++ inner ∧ SizesHead opening r head ∧
      Pending (Series Comma SizePhrase) Comma inner sizes.reverse
  | sizeAxis opening r sizes axis => ∃ head inner word, tokens = head ++ inner ++ [word] ∧
      SizesHead opening r head ∧ Pending (Series Comma SizePhrase) Comma inner sizes.reverse ∧
      word.IsAxis ∧ word.toName = axis
  | sizeEqual opening r sizes axis => ∃ head inner word equal,
      tokens = head ++ inner ++ [word, equal] ∧ SizesHead opening r head ∧
      Pending (Series Comma SizePhrase) Comma inner sizes.reverse ∧
      word.IsAxis ∧ word.toName = axis ∧ equal.terminal = .mark .equal
  | sizeEnd opening r sizes => ∃ head inner, tokens = head ++ inner ∧ SizesHead opening r head ∧
      Series Comma SizePhrase inner sizes.reverse
  | static opening => ∃ head word, tokens = head ++ [word] ∧ opening.Explains head ∧
      word.terminal = .keyword .static
  | staticColons opening => ∃ head word colons, tokens = head ++ [word, colons] ∧
      opening.Explains head ∧ word.terminal = .keyword .static ∧ colons.terminal = .mark .colons
  | staticOpen opening => ∃ head word colons opened, tokens = head ++ [word, colons, opened] ∧
      opening.Explains head ∧ word.terminal = .keyword .static ∧
      colons.terminal = .mark .colons ∧ opened.terminal = .mark .openParen
  | staticState opening name => ∃ head word colons opened state,
      tokens = head ++ [word, colons, opened, state] ∧ opening.Explains head ∧
      word.terminal = .keyword .static ∧ colons.terminal = .mark .colons ∧
      opened.terminal = .mark .openParen ∧ state.terminal = .name ∧ state.toName = name
  | block opening => BlockHead opening tokens
  | firstName opening name => StateHead ⟨opening, [], name⟩ tokens
  | offset opening rules => OffsetsHead opening rules tokens
  | offsetAxis opening rules axis => ∃ head word, tokens = head ++ [word] ∧
      OffsetsHead opening rules head ∧ word.IsAxis ∧ word.toName = axis
  | offsetDirection opening rules axis direction => ∃ head word sign,
      tokens = head ++ [word, sign] ∧ OffsetsHead opening rules head ∧
      word.IsAxis ∧ word.toName = axis ∧ sign.terminal = direction.terminal
  | offsetEnd opening rules => ∃ head inner, tokens = head ++ inner ∧ BlockHead opening head ∧
      Series OptionalComma OffsetPhrase inner rules.reverse
  | state entry => StateHead entry tokens
  | stateColons entry => AttributesHead entry tokens .alone
  | attributeStart entry finished => AttributesHead entry tokens (.grouped finished)
  | attributeKey entry list name => ∃ head key, tokens = head ++ [key] ∧
      AttributesHead entry head list ∧ key.terminal = .name ∧ key.toName = name
  | attributeOpen entry list name => ∃ head key opened, tokens = head ++ [key, opened] ∧
      AttributesHead entry head list ∧ key.terminal = .name ∧ key.toName = name ∧
      opened.terminal = .mark .openParen
  | attributeToken entry list name word => ∃ head key opened token,
      tokens = head ++ [key, opened, token] ∧ AttributesHead entry head list ∧
      key.terminal = .name ∧ key.toName = name ∧ opened.terminal = .mark .openParen ∧
      token.terminal = .name ∧ token.toName = word
  | attributeEnd entry list last => ∃ head inner, tokens = head ++ inner ∧
      AttributesHead entry head list ∧ AttributePhrase inner last
  | stateEnd opening entries => EntriesHead opening entries tokens
  | ruleSource opening rules => ∃ head origin, tokens = head ++ [origin] ∧
      RulesHead opening rules head ∧ origin.terminal = .keyword .fromWord
  | ruleTo opening rules source => ∃ head origin word, tokens = head ++ [origin, word] ∧
      RulesHead opening rules head ∧ origin.terminal = .keyword .fromWord ∧
      word.terminal = .name ∧ word.toName = source
  | ruleTarget opening rules source => ∃ head origin word into,
      tokens = head ++ [origin, word, into] ∧ RulesHead opening rules head ∧
      origin.terminal = .keyword .fromWord ∧ word.terminal = .name ∧ word.toName = source ∧
      into.terminal = .keyword .toWord
  | ruleAssign opening rules source target => ∃ head origin word into other,
      tokens = head ++ [origin, word, into, other] ∧ RulesHead opening rules head ∧
      origin.terminal = .keyword .fromWord ∧ word.terminal = .name ∧ word.toName = source ∧
      into.terminal = .keyword .toWord ∧ other.terminal = .name ∧ other.toName = target
  | operand rule => OperandHead rule tokens
  | test rule => ∃ head word, tokens = head ++ [word] ∧ OperandHead rule head ∧
      word.terminal = .keyword .neighborhood
  | testOpen rule => ∃ head word opened, tokens = head ++ [word, opened] ∧
      OperandHead rule head ∧ word.terminal = .keyword .neighborhood ∧
      opened.terminal = .mark .openParen
  | testState rule name => ∃ head word opened state, tokens = head ++ [word, opened, state] ∧
      OperandHead rule head ∧ word.terminal = .keyword .neighborhood ∧
      opened.terminal = .mark .openParen ∧ state.terminal = .name ∧ state.toName = name
  | testComparison rule name => ∃ head word opened state closed,
      tokens = head ++ [word, opened, state, closed] ∧ OperandHead rule head ∧
      word.terminal = .keyword .neighborhood ∧ opened.terminal = .mark .openParen ∧
      state.terminal = .name ∧ state.toName = name ∧ closed.terminal = .mark .closeParen
  | testBound rule name comparison => ∃ head word opened state closed symbol,
      tokens = head ++ [word, opened, state, closed, symbol] ∧ OperandHead rule head ∧
      word.terminal = .keyword .neighborhood ∧ opened.terminal = .mark .openParen ∧
      state.terminal = .name ∧ state.toName = name ∧ closed.terminal = .mark .closeParen ∧
      symbol.terminal = .comparison ∧ Comparison.ofSymbol? symbol.text = some comparison
  | operandEnd rule => ∃ before outer own, tokens = before ++ outer ++ own ∧
      rule.Explains before ∧ Enclosed rule.outer outer ∧ rule.level.Ends own

/-! ## Finished parts -/

theorem declared_explains {opening : Opening} {head tokens : List Token} {value : Value}
    (explains : opening.Explains head) (phrase : ValuePhrase tokens value) :
    (declared opening value).Explains (head ++ tokens) := by
  rcases explains with ⟨before, key, assign, rfl, earlier, isKey, named, isAssign⟩
  change Sentence _ (⟨opening.key, value⟩ :: opening.earlier).reverse
  rw [List.reverse_cons, List.append_assoc, ← named]
  exact .snoc earlier (.mk isKey isAssign phrase)

theorem keyed_explains {earlier : List Declaration} {tokens : List Token} {token : Token}
    {next : Place} (sentence : Sentence tokens earlier.reverse)
    (stepped : keyed earlier token = some next) : next.Explains (tokens ++ [token]) := by
  simp only [keyed] at stepped
  split at stepped <;> cases stepped
  · rename_i isName
    exact ⟨tokens, token, rfl, sentence, Or.inl isName, rfl⟩
  · rename_i isKeyword
    exact ⟨tokens, token, rfl, sentence, Or.inr isKeyword, rfl⟩

theorem directed_explains {opening : Opening} {rules : List OffsetRule} {head : List Token}
    {word token : Token} {next : Place} (explains : OffsetsHead opening rules head)
    (isAxis : word.IsAxis) (stepped : directed opening rules word.toName token = some next) :
    next.Explains (head ++ [word] ++ [token]) := by
  simp only [directed] at stepped
  split at stepped <;> cases stepped
  all_goals
    rename_i sign
    exact ⟨head, word, token, by simp, explains, isAxis, rfl, sign⟩

/-- A block without separators goes on with a name, and the state of the name begins. -/
theorem nextEntry_explains {opening : Opening} {entries : List StateEntry} {tokens : List Token}
    {token : Token} {next : Place} (explains : EntriesHead opening entries tokens)
    (stepped : nextEntry opening entries token = some next) :
    next.Explains (tokens ++ [token]) := by
  rcases explains with ⟨head, inner, rfl, block, series⟩
  simp only [nextEntry] at stepped
  split at stepped <;> cases stepped
  · rename_i isName
    have pending : Pending (Series NoSeparator EntryPhrase) NoSeparator (inner ++ [])
        entries.reverse := .some series .mk
    exact ⟨head, inner ++ [], token, by simp, block, pending, isName, rfl⟩
  · rename_i closes
    rcases block with ⟨before, opened, rfl, explains, opens⟩
    have phrase := ValuePhrase.states opens series closes
    have declared := declared_explains explains phrase
    simpa using declared

/-- The name of a state and its attributes are one more state of the block. -/
theorem entered_explains {entry : OpenState} {head rest : List Token} {marks : List Attribute}
    (explains : StateHead entry head)
    (phrase : ∀ name : Token, name.terminal = .name →
      EntryPhrase ([name] ++ rest) ⟨name.toName, marks.reverse⟩) :
    EntriesHead entry.opening (entered entry marks) (head ++ rest) := by
  rcases explains with ⟨before, inner, name, rfl, block, pending, isName, named⟩
  refine ⟨before, inner ++ ([name] ++ rest), by simp, block, ?_⟩
  rw [Place.entered, List.reverse_cons, ← named]
  exact pending.snoc (phrase name isName)

theorem plain_explains {entry : OpenState} {head : List Token} (explains : StateHead entry head) :
    EntriesHead entry.opening (entered entry []) head := by
  have plain : EntriesHead entry.opening (entered entry []) (head ++ []) :=
    entered_explains explains fun name isName => .plain isName
  rwa [List.append_nil] at plain

theorem marked_explains {entry : OpenState} {list : AttributeList} {head : List Token}
    {token : Token} {next : Place} (explains : AttributesHead entry head list)
    (stepped : marked entry list token = some next) : next.Explains (head ++ [token]) := by
  simp only [marked] at stepped
  split at stepped <;> cases stepped
  · rename_i isName
    exact ⟨head, token, rfl, explains, isName, rfl⟩
  · rename_i isDefault
    exact ⟨head, [token], rfl, explains, .defaultMark isDefault⟩

/-- The rule that an open rule becomes when its condition ends. -/
theorem finish_explains {rule : OpenRule} {before own : List Token}
    (explains : rule.Explains before) (ends : rule.level.Ends own) :
    RulesHead rule.opening (⟨rule.source, rule.target, rule.level.close⟩ :: rule.earlier)
      (before ++ own) := by
  rcases explains with ⟨head, origin, source, into, target, assign, rfl, ⟨block, inner, rfl,
    blockHead, earlier⟩, isFrom, isSource, sourceNamed, isTo, isTarget, targetNamed, isAssign⟩
  rcases ends.close with ⟨alternatives, condition, closed⟩
  refine ⟨block, inner ++ ([origin, source, into, target, assign] ++ own), by simp, blockHead, ?_⟩
  rw [List.reverse_cons, closed, ← sourceNamed, ← targetNamed]
  exact .snoc earlier (.mk isFrom isSource isTo isTarget isAssign condition)

theorem continued_explains {rule : OpenRule} {tokens : List Token} {token : Token} {next : Place}
    (explains : (operandEnd rule).Explains tokens) (stepped : continued rule token = some next) :
    next.Explains (tokens ++ [token]) := by
  rcases explains with ⟨before, outer, own, rfl, head, enclosed, ends⟩
  simp only [continued] at stepped
  split at stepped <;> cases stepped
  · rename_i isAmpersand
    exact ⟨before, outer, own ++ [token], by simp, head, enclosed, ends.conjunct isAmpersand⟩
  · rename_i isBar
    exact ⟨before, outer, own ++ [token], by simp, head, enclosed, ends.alternative isBar⟩
  · rename_i level levels closes nested
    rw [nested] at enclosed
    cases enclosed with
    | @cons _ _ further around opened enclosed explains opens =>
        rcases ends.close with ⟨alternatives, condition, closed⟩
        have operand := explains.operand (.parentheses opens condition closes)
        rw [← closed] at operand
        exact ⟨before, further, around ++ ([opened] ++ own ++ [token]), by simp, head, enclosed,
          operand⟩
  · rename_i isFrom nested
    rw [nested] at enclosed
    cases enclosed with
    | nil => exact ⟨before ++ own, token, by simp, finish_explains head ends, isFrom⟩
  · rename_i closes nested
    rw [nested] at enclosed
    cases enclosed with
    | nil =>
        rcases finish_explains head ends with
          ⟨block, inner, split, ⟨start, opened, rfl, explains, opens⟩, rules⟩
        have declared := declared_explains explains (.rules opens rules closes)
        rw [List.append_nil, split]
        simpa using declared

/-! ## Steps -/

/-- A token that leads on from the place is explained together with those that led to it. -/
def StepExplains (place : Place) : Prop :=
  ∀ (tokens : List Token) (token : Token) (next : Place), place.Explains tokens →
    place.step token = some next → next.Explains (tokens ++ [token])

variable {opening : Opening}

/-! ### Declarations -/

theorem stepExplains_key : (key opening).StepExplains := by
  intro tokens token next explains stepped
  simp only [Place.step] at stepped
  split at stepped <;> cases stepped
  rename_i isAssign
  rcases explains with ⟨before, key, rfl, sentence, isKey, named⟩
  exact ⟨before, key, token, by simp, sentence, isKey, named, isAssign⟩

theorem stepExplains_value : (value opening).StepExplains := by
  intro tokens token next explains stepped
  simp only [Place.step] at stepped
  split at stepped <;> cases stepped <;> rename_i isWord
  · exact ⟨tokens, token, rfl, explains, isWord, rfl⟩
  · exact declared_explains explains (.moore isWord)
  · exact declared_explains explains (.vonNeumann isWord)
  · exact declared_explains explains (.void isWord)
  · exact declared_explains explains (.wrap isWord)
  · exact ⟨tokens, token, rfl, explains, isWord⟩
  · exact ⟨tokens, token, rfl, explains, isWord⟩

/-! ### Sizes -/

theorem stepExplains_rank {r : Nat} : (rank opening r).StepExplains := by
  intro tokens token next explains stepped
  rcases explains with ⟨head, rank, rfl, explains, isRank, rfl⟩
  simp only [Place.step] at stepped
  split at stepped
  · rename_i isColons
    cases stepped
    exact ⟨head, rank, token, by simp, explains, isRank, rfl, isColons⟩
  · exact keyed_explains (declared_explains explains (.environment isRank)) stepped

theorem stepExplains_sizesOpen {r : Nat} : (sizesOpen opening r).StepExplains := by
  intro tokens token next explains stepped
  rcases explains with ⟨head, rank, colons, rfl, explains, isRank, rfl, isColons⟩
  simp only [Place.step] at stepped
  split at stepped <;> cases stepped
  rename_i opens
  exact ⟨head ++ [rank, colons, token], [], by simp,
    ⟨head, rank, colons, token, rfl, explains, isRank, rfl, isColons, opens⟩, .none⟩

theorem stepExplains_size {r : Nat} {sizes : List (Name × Int)} :
    (size opening r sizes).StepExplains := by
  intro tokens token next explains stepped
  rcases explains with ⟨head, inner, rfl, sizesHead, pending⟩
  simp only [Place.step] at stepped
  split at stepped <;> cases stepped <;> rename_i isWord
  · exact ⟨head, inner, token, rfl, sizesHead, pending, Or.inl isWord, rfl⟩
  · exact ⟨head, inner, token, rfl, sizesHead, pending, Or.inr isWord, rfl⟩

theorem stepExplains_sizeAxis {r : Nat} {sizes : List (Name × Int)} {axis : Name} :
    (sizeAxis opening r sizes axis).StepExplains := by
  intro tokens token next explains stepped
  rcases explains with ⟨head, inner, word, rfl, sizesHead, pending, isAxis, named⟩
  simp only [Place.step] at stepped
  split at stepped <;> cases stepped
  rename_i isEqual
  exact ⟨head, inner, word, token, by simp, sizesHead, pending, isAxis, named, isEqual⟩

theorem stepExplains_sizeEqual {r : Nat} {sizes : List (Name × Int)} {axis : Name} :
    (sizeEqual opening r sizes axis).StepExplains := by
  intro tokens token next explains stepped
  rcases explains with ⟨head, inner, word, equal, rfl, sizesHead, pending, isAxis, rfl, isEqual⟩
  simp only [Place.step] at stepped
  split at stepped <;> cases stepped
  rename_i isInteger
  refine ⟨head, inner ++ [word, equal, token], by simp, sizesHead, ?_⟩
  rw [List.reverse_cons]
  exact pending.snoc (.mk isAxis isEqual isInteger)

theorem stepExplains_sizeEnd {r : Nat} {sizes : List (Name × Int)} :
    (sizeEnd opening r sizes).StepExplains := by
  intro tokens token next explains stepped
  rcases explains with ⟨head, inner, rfl, sizesHead, series⟩
  simp only [Place.step] at stepped
  split at stepped <;> cases stepped <;> rename_i isMark
  · exact ⟨head, inner ++ [token], by simp, sizesHead, .some series (.mk isMark)⟩
  · rcases sizesHead with ⟨before, rank, colons, opened, rfl, explains, isRank, rfl, isColons,
      opens⟩
    have declared := declared_explains explains (.sizes isRank isColons opens series isMark)
    simpa using declared

/-! ### Static boundaries -/

theorem stepExplains_static : (static opening).StepExplains := by
  intro tokens token next explains stepped
  rcases explains with ⟨head, word, rfl, explains, isWord⟩
  simp only [Place.step] at stepped
  split at stepped
  · rename_i isColons
    cases stepped
    exact ⟨head, word, token, by simp, explains, isWord, isColons⟩
  · exact keyed_explains (declared_explains explains (.static isWord)) stepped

theorem stepExplains_staticColons : (staticColons opening).StepExplains := by
  intro tokens token next explains stepped
  rcases explains with ⟨head, word, colons, rfl, explains, isWord, isColons⟩
  simp only [Place.step] at stepped
  split at stepped <;> cases stepped
  rename_i opens
  exact ⟨head, word, colons, token, by simp, explains, isWord, isColons, opens⟩

theorem stepExplains_staticOpen : (staticOpen opening).StepExplains := by
  intro tokens token next explains stepped
  rcases explains with ⟨head, word, colons, opened, rfl, explains, isWord, isColons, opens⟩
  simp only [Place.step] at stepped
  split at stepped <;> cases stepped
  rename_i isName
  exact ⟨head, word, colons, opened, token, by simp, explains, isWord, isColons, opens, isName,
    rfl⟩

theorem stepExplains_staticState {name : Name} : (staticState opening name).StepExplains := by
  intro tokens token next explains stepped
  rcases explains with
    ⟨head, word, colons, opened, state, rfl, explains, isWord, isColons, opens, isName, rfl⟩
  simp only [Place.step] at stepped
  split at stepped <;> cases stepped
  rename_i closes
  have declared := declared_explains explains
    (.staticState isWord isColons opens isName closes)
  simpa using declared

/-! ### Blocks -/

theorem stepExplains_block : (block opening).StepExplains := by
  intro tokens token next explains stepped
  simp only [Place.step] at stepped
  split at stepped <;> cases stepped <;> rename_i isWord
  · exact ⟨tokens, token, rfl, ⟨tokens, [], by simp, explains, .none⟩, Or.inr isWord, rfl⟩
  · exact ⟨tokens, [], token, by simp, explains, .none, isWord, rfl⟩
  · exact ⟨tokens, token, rfl, ⟨tokens, [], by simp, explains, .nil⟩, isWord⟩
  · rcases explains with ⟨head, opened, rfl, explains, opens⟩
    have declared := declared_explains explains (.rules opens .nil isWord)
    simpa using declared

theorem stepExplains_firstName {name : Name} : (firstName opening name).StepExplains := by
  intro tokens token next explains stepped
  have stateHead : StateHead ⟨opening, [], name⟩ tokens := explains
  have entered := plain_explains stateHead
  simp only [Place.step] at stepped
  split at stepped
  · rename_i isColons
    cases stepped
    exact ⟨tokens, token, rfl, stateHead, isColons⟩
  · exact nextEntry_explains entered stepped
  · exact nextEntry_explains entered stepped
  · rcases stateHead with ⟨before, inner, word, rfl, block, pending, isName, rfl⟩
    have offsets : OffsetsHead opening [] (before ++ inner) := by
      cases pending with
      | none => exact ⟨before, [], rfl, block, .none⟩
      | some series _ => exact absurd rfl series.ne_nil
    exact directed_explains offsets (Or.inl isName) stepped

/-! ### Offsets -/

theorem stepExplains_offset {rules : List OffsetRule} : (offset opening rules).StepExplains := by
  intro tokens token next explains stepped
  simp only [Place.step] at stepped
  split at stepped <;> cases stepped <;> rename_i isWord
  · exact ⟨tokens, token, rfl, explains, Or.inl isWord, rfl⟩
  · exact ⟨tokens, token, rfl, explains, Or.inr isWord, rfl⟩

theorem stepExplains_offsetAxis {rules : List OffsetRule} {axis : Name} :
    (offsetAxis opening rules axis).StepExplains := by
  intro tokens token next explains stepped
  rcases explains with ⟨head, word, rfl, offsetsHead, isAxis, rfl⟩
  exact directed_explains offsetsHead isAxis stepped

theorem stepExplains_offsetDirection {rules : List OffsetRule} {axis : Name}
    {direction : Direction} :
    (offsetDirection opening rules axis direction).StepExplains := by
  intro tokens token next explains stepped
  rcases explains with
    ⟨head, word, sign, rfl, ⟨before, inner, rfl, block, pending⟩, isAxis, rfl, isSign⟩
  simp only [Place.step] at stepped
  split at stepped <;> cases stepped
  rename_i isInteger
  refine ⟨before, inner ++ [word, sign, token], by simp, block, ?_⟩
  rw [List.reverse_cons]
  exact pending.snoc (.mk isAxis isSign isInteger)

theorem stepExplains_offsetEnd {rules : List OffsetRule} :
    (offsetEnd opening rules).StepExplains := by
  intro tokens token next explains stepped
  rcases explains with ⟨head, inner, rfl, block, series⟩
  simp only [Place.step] at stepped
  split at stepped <;> cases stepped <;> rename_i isWord
  · exact ⟨head, inner ++ [token], by simp, block, .some series (.present isWord)⟩
  · exact ⟨head ++ (inner ++ []), token, by simp,
      ⟨head, inner ++ [], rfl, block, .some series .absent⟩, Or.inl isWord, rfl⟩
  · exact ⟨head ++ (inner ++ []), token, by simp,
      ⟨head, inner ++ [], rfl, block, .some series .absent⟩, Or.inr isWord, rfl⟩
  · rcases block with ⟨before, opened, rfl, explains, opens⟩
    have declared := declared_explains explains (.offsets opens series isWord)
    simpa using declared

/-! ### States -/

theorem stepExplains_state {entry : OpenState} : (state entry).StepExplains := by
  intro tokens token next explains stepped
  simp only [Place.step] at stepped
  split at stepped
  · rename_i isColons
    cases stepped
    exact ⟨tokens, token, rfl, explains, isColons⟩
  · have entered := plain_explains explains
    exact nextEntry_explains entered stepped

theorem stepExplains_stateColons {entry : OpenState} : (stateColons entry).StepExplains := by
  intro tokens token next explains stepped
  simp only [Place.step] at stepped
  split at stepped
  · rename_i opens
    cases stepped
    rcases explains with ⟨before, colons, rfl, stateHead, isColons⟩
    exact ⟨before, colons, token, [], by simp, stateHead, isColons, opens, .none⟩
  · have head : AttributesHead entry tokens .alone := explains
    exact marked_explains head stepped

theorem stepExplains_attributeStart {entry : OpenState} {finished : List Attribute} :
    (attributeStart entry finished).StepExplains := by
  intro tokens token next explains stepped
  have head : AttributesHead entry tokens (.grouped finished) := explains
  exact marked_explains head stepped

theorem stepExplains_attributeKey {entry : OpenState} {list : AttributeList} {name : Name} :
    (attributeKey entry list name).StepExplains := by
  intro tokens token next explains stepped
  rcases explains with ⟨head, key, rfl, attributes, isName, named⟩
  simp only [Place.step] at stepped
  split at stepped <;> cases stepped
  rename_i opens
  exact ⟨head, key, token, by simp, attributes, isName, named, opens⟩

theorem stepExplains_attributeOpen {entry : OpenState} {list : AttributeList} {name : Name} :
    (attributeOpen entry list name).StepExplains := by
  intro tokens token next explains stepped
  rcases explains with ⟨head, key, opened, rfl, attributes, isName, named, opens⟩
  simp only [Place.step] at stepped
  split at stepped <;> cases stepped
  rename_i isToken
  exact ⟨head, key, opened, token, by simp, attributes, isName, named, opens, isToken, rfl⟩

theorem stepExplains_attributeToken {entry : OpenState} {list : AttributeList} {name word : Name} :
    (attributeToken entry list name word).StepExplains := by
  intro tokens token next explains stepped
  rcases explains with ⟨head, key, opened, token', rfl, attributes, isName, rfl, opens, isToken,
    rfl⟩
  simp only [Place.step] at stepped
  split at stepped <;> cases stepped
  rename_i closes
  exact ⟨head, [key, opened, token', token], by simp, attributes,
    .keyed isName opens isToken closes⟩

theorem stepExplains_attributeEnd {entry : OpenState} {list : AttributeList} {last : Attribute} :
    (attributeEnd entry list last).StepExplains := by
  intro tokens token next explains stepped
  rcases explains with ⟨head, inner, rfl, attributes, phrase⟩
  cases list with
  | alone =>
      rcases attributes with ⟨before, colons, rfl, stateHead, isColons⟩
      have entered : EntriesHead entry.opening (entered entry [last])
          (before ++ ([colons] ++ inner)) :=
        entered_explains stateHead fun name isName => .marked isName isColons (.alone phrase)
      rw [← List.append_assoc] at entered
      exact nextEntry_explains entered stepped
  | grouped finished =>
      rcases attributes with ⟨before, colons, opened, others, rfl, stateHead, isColons, opens,
        pending⟩
      have series := pending.snoc phrase
      rw [← List.reverse_cons] at series
      simp only [Place.step] at stepped
      split at stepped <;> cases stepped <;> rename_i isMark
      · exact ⟨before, colons, opened, others ++ inner ++ [token], by simp, stateHead, isColons,
          opens, .some series (.mk isMark)⟩
      · have entered : EntriesHead entry.opening (entered entry (last :: finished))
            (before ++ ([colons] ++ ([opened] ++ (others ++ inner) ++ [token]))) :=
          entered_explains stateHead fun name isName =>
            .marked isName isColons (.grouped opens series isMark)
        change EntriesHead entry.opening (Place.entered entry (last :: finished)) _
        simpa using entered

/-! ### Rules -/

theorem stepExplains_ruleSource {rules : List (Rule Name)} :
    (ruleSource opening rules).StepExplains := by
  intro tokens token next explains stepped
  rcases explains with ⟨head, origin, rfl, rulesHead, isFrom⟩
  simp only [Place.step] at stepped
  split at stepped <;> cases stepped
  rename_i isName
  exact ⟨head, origin, token, by simp, rulesHead, isFrom, isName, rfl⟩

theorem stepExplains_ruleTo {rules : List (Rule Name)} {source : Name} :
    (ruleTo opening rules source).StepExplains := by
  intro tokens token next explains stepped
  rcases explains with ⟨head, origin, word, rfl, rulesHead, isFrom, isName, named⟩
  simp only [Place.step] at stepped
  split at stepped <;> cases stepped
  rename_i isTo
  exact ⟨head, origin, word, token, by simp, rulesHead, isFrom, isName, named, isTo⟩

theorem stepExplains_ruleTarget {rules : List (Rule Name)} {source : Name} :
    (ruleTarget opening rules source).StepExplains := by
  intro tokens token next explains stepped
  rcases explains with ⟨head, origin, word, into, rfl, rulesHead, isFrom, isName, named, isTo⟩
  simp only [Place.step] at stepped
  split at stepped <;> cases stepped
  rename_i isTarget
  exact ⟨head, origin, word, into, token, by simp, rulesHead, isFrom, isName, named, isTo,
    isTarget, rfl⟩

theorem stepExplains_ruleAssign {rules : List (Rule Name)} {source target : Name} :
    (ruleAssign opening rules source target).StepExplains := by
  intro tokens token next explains stepped
  rcases explains with ⟨head, origin, word, into, other, rfl, rulesHead, isFrom, isName, named,
    isTo, isTarget, targetNamed⟩
  simp only [Place.step] at stepped
  split at stepped <;> cases stepped
  rename_i isAssign
  exact ⟨head ++ [origin, word, into, other, token], [], [], by simp,
    ⟨head, origin, word, into, other, token, rfl, rulesHead, isFrom, isName, named, isTo,
      isTarget, targetNamed, isAssign⟩, .nil, Level.explains_empty⟩

/-! ### Conditions -/

theorem stepExplains_operand {rule : OpenRule} : (operand rule).StepExplains := by
  intro tokens token next explains stepped
  simp only [Place.step] at stepped
  split at stepped <;> cases stepped <;> rename_i isWord
  · rcases explains with ⟨before, outer, own, rfl, head, enclosed, explains⟩
    exact ⟨before, outer, own ++ [token], by simp, head, enclosed, explains.negate isWord⟩
  · rcases explains with ⟨before, outer, own, rfl, head, enclosed, explains⟩
    exact ⟨before, outer ++ own ++ [token], [], by simp, head, .cons enclosed explains isWord,
      Level.explains_empty⟩
  · exact ⟨tokens, token, rfl, explains, isWord⟩

theorem stepExplains_test {rule : OpenRule} : (test rule).StepExplains := by
  intro tokens token next explains stepped
  rcases explains with ⟨head, word, rfl, operandHead, isWord⟩
  simp only [Place.step] at stepped
  split at stepped <;> cases stepped
  rename_i opens
  exact ⟨head, word, token, by simp, operandHead, isWord, opens⟩

theorem stepExplains_testOpen {rule : OpenRule} : (testOpen rule).StepExplains := by
  intro tokens token next explains stepped
  rcases explains with ⟨head, word, opened, rfl, operandHead, isWord, opens⟩
  simp only [Place.step] at stepped
  split at stepped <;> cases stepped
  rename_i isName
  exact ⟨head, word, opened, token, by simp, operandHead, isWord, opens, isName, rfl⟩

theorem stepExplains_testState {rule : OpenRule} {name : Name} :
    (testState rule name).StepExplains := by
  intro tokens token next explains stepped
  rcases explains with
    ⟨head, word, opened, state, rfl, operandHead, isWord, opens, isName, named⟩
  simp only [Place.step] at stepped
  split at stepped <;> cases stepped
  rename_i closes
  exact ⟨head, word, opened, state, token, by simp, operandHead, isWord, opens, isName, named,
    closes⟩

theorem stepExplains_testComparison {rule : OpenRule} {name : Name} :
    (testComparison rule name).StepExplains := by
  intro tokens token next explains stepped
  rcases explains with
    ⟨head, word, opened, state, closed, rfl, operandHead, isWord, opens, isName, named, closes⟩
  simp only [Place.step] at stepped
  split at stepped
  · rename_i isSymbol
    rcases Option.map_eq_some_iff.mp stepped with ⟨comparison, known, rfl⟩
    exact ⟨head, word, opened, state, closed, token, by simp, operandHead, isWord, opens,
      isName, named, closes, isSymbol, known⟩
  · cases stepped

theorem stepExplains_testBound {rule : OpenRule} {name : Name} {comparison : Comparison} :
    (testBound rule name comparison).StepExplains := by
  intro tokens token next explains stepped
  rcases explains with ⟨head, word, opened, state, closed, symbol, rfl,
    ⟨before, outer, own, rfl, ruleHead, enclosed, explains⟩, isWord, opens, isName, rfl, closes,
    isSymbol, known⟩
  simp only [Place.step] at stepped
  split at stepped <;> cases stepped
  rename_i isInteger
  exact ⟨before, outer, own ++ [word, opened, state, closed, symbol, token], by simp, ruleHead,
    enclosed, explains.operand (.test isWord opens isName closes isSymbol known isInteger)⟩

/-! ### All places -/

theorem stepExplains (place : Place) : place.StepExplains := by
  cases place with
  | between finished => exact fun _ _ _ => keyed_explains
  | key => exact stepExplains_key
  | value => exact stepExplains_value
  | rank => exact stepExplains_rank
  | sizesOpen => exact stepExplains_sizesOpen
  | size => exact stepExplains_size
  | sizeAxis => exact stepExplains_sizeAxis
  | sizeEqual => exact stepExplains_sizeEqual
  | sizeEnd => exact stepExplains_sizeEnd
  | static => exact stepExplains_static
  | staticColons => exact stepExplains_staticColons
  | staticOpen => exact stepExplains_staticOpen
  | staticState => exact stepExplains_staticState
  | block => exact stepExplains_block
  | firstName => exact stepExplains_firstName
  | offset => exact stepExplains_offset
  | offsetAxis => exact stepExplains_offsetAxis
  | offsetDirection => exact stepExplains_offsetDirection
  | offsetEnd => exact stepExplains_offsetEnd
  | state => exact stepExplains_state
  | stateColons => exact stepExplains_stateColons
  | attributeStart => exact stepExplains_attributeStart
  | attributeKey => exact stepExplains_attributeKey
  | attributeOpen => exact stepExplains_attributeOpen
  | attributeToken => exact stepExplains_attributeToken
  | attributeEnd => exact stepExplains_attributeEnd
  | stateEnd opening entries => exact fun _ _ _ => nextEntry_explains
  | ruleSource => exact stepExplains_ruleSource
  | ruleTo => exact stepExplains_ruleTo
  | ruleTarget => exact stepExplains_ruleTarget
  | ruleAssign => exact stepExplains_ruleAssign
  | operand => exact stepExplains_operand
  | test => exact stepExplains_test
  | testOpen => exact stepExplains_testOpen
  | testState => exact stepExplains_testState
  | testComparison => exact stepExplains_testComparison
  | testBound => exact stepExplains_testBound
  | operandEnd rule => exact fun _ _ _ => continued_explains

theorem Explains.step {place next : Place} {tokens : List Token} {token : Token}
    (explains : place.Explains tokens) (stepped : place.step token = some next) :
    next.Explains (tokens ++ [token]) :=
  place.stepExplains _ _ _ explains stepped

/-- The end of a text completes the last declaration. -/
theorem Explains.finish {place : Place} {tokens : List Token} (explains : place.Explains tokens)
    {program : List Declaration} (finished : place.finish? = some program) :
    Sentence tokens program := by
  unfold finish? at finished
  split at finished <;> cases finished
  · exact explains
  · rcases explains with ⟨head, rank, rfl, explains, isRank, rfl⟩
    exact declared_explains explains (.environment isRank)
  · rcases explains with ⟨head, word, rfl, explains, isWord⟩
    exact declared_explains explains (.static isWord)

end Place

/-! ## Runs -/

theorem Run.explains {place final : Place} {before tokens : List Token}
    (run : Run place tokens final) (explains : place.Explains before) :
    final.Explains (before ++ tokens) := by
  induction run generalizing before with
  | done => rwa [List.append_nil]
  | token _ stepped _ ih =>
      have next := ih (explains.step stepped)
      rwa [List.append_assoc] at next

/-- The tokens of a run through a whole program are a sentence. -/
theorem Run.sentence {final : Place} {tokens : List Token} (run : Run (.between []) tokens final)
    {program : List Declaration} (finished : final.finish? = some program) :
    Sentence tokens program := by
  have start : (Place.between []).Explains [] := .nil
  exact (run.explains start).finish finished

end Cellular
