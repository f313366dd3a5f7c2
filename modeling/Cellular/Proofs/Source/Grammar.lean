import Cellular.Source.Place

/-!
# The grammar of programs

A program is a sentence of a grammar over tokens. There is a phrase for every rule of the
grammar, and it relates the tokens that the rule derives to the part of a program that
they stand for. A phrase looks at terminals only; the words of its tokens matter for
what they stand for.

Lists grow at their end: a list of phrases is a shorter list and one more phrase, with what
stands between them.
-/

namespace Cellular

/-! ## Lists of phrases -/

section Lists

variable {α : Type}

/-- Any number of phrases, one after the other. -/
inductive Repeated (phrase : List Token → α → Prop) : List Token → List α → Prop where
  | nil : Repeated phrase [] []
  | snoc {before tokens : List Token} {items : List α} {item : α} :
      Repeated phrase before items → phrase tokens item →
        Repeated phrase (before ++ tokens) (items ++ [item])

/-- At least one phrase, and a separator between every two. -/
inductive Series (separator : List Token → Prop) (phrase : List Token → α → Prop) :
    List Token → List α → Prop where
  | single {tokens : List Token} {item : α} :
      phrase tokens item → Series separator phrase tokens [item]
  | snoc {before between tokens : List Token} {items : List α} {item : α} :
      Series separator phrase before items → separator between → phrase tokens item →
        Series separator phrase (before ++ between ++ tokens) (items ++ [item])

theorem Series.ne_nil {separator : List Token → Prop} {phrase : List Token → α → Prop}
    {tokens : List Token} {items : List α} (series : Series separator phrase tokens items) :
    items ≠ [] := by
  cases series with
  | single _ => exact List.cons_ne_nil _ _
  | snoc _ _ _ => exact List.append_ne_nil_of_right_ne_nil _ (List.cons_ne_nil _ _)

end Lists

/-- Nothing. -/
inductive NoSeparator : List Token → Prop where
  | mk : NoSeparator []

private theorem Repeated.tokens_nil {α : Type} {phrase : List Token → α → Prop}
    {tokens : List Token} {items : List α} (repeated : Repeated phrase tokens items)
    (none : items = []) : tokens = [] := by
  cases repeated with
  | nil => rfl
  | snoc _ _ => exact absurd none (List.append_ne_nil_of_right_ne_nil _ (List.cons_ne_nil _ _))

/-- Phrases without separators are a series, if there are any. -/
theorem Repeated.series {α : Type} {phrase : List Token → α → Prop} {tokens : List Token}
    {items : List α} (repeated : Repeated phrase tokens items) (nonempty : items ≠ []) :
    Series NoSeparator phrase tokens items := by
  induction repeated with
  | nil => exact absurd rfl nonempty
  | @snoc before tokens items item repeated last ih =>
      by_cases alone : items = []
      · rw [repeated.tokens_nil alone, alone]
        exact .single last
      · have whole := Series.snoc (ih alone) .mk last
        rwa [List.append_nil] at whole

/-- A comma. -/
inductive Comma : List Token → Prop where
  | mk {comma : Token} : comma.terminal = .mark .comma → Comma [comma]

/-- A comma, or nothing. -/
inductive OptionalComma : List Token → Prop where
  | absent : OptionalComma []
  | present {comma : Token} : comma.terminal = .mark .comma → OptionalComma [comma]

/-! ## Environments, neighbourhoods and states -/

/-- A token that stands for one axis or for all of them. -/
def Token.IsAxis (token : Token) : Prop :=
  token.terminal = .name ∨ token.terminal = .mark .star

/-- The terminal that stands for a direction. -/
def Direction.terminal : Direction → Terminal
  | plus => .mark .plus
  | minus => .mark .minus
  | plusMinus => .mark .plusMinus
  | within => .keyword .within

/-- The size of an axis: the axis, an equality sign, and an integer. -/
inductive SizePhrase : List Token → Name × Int → Prop where
  | mk {axis equal size : Token} :
      axis.IsAxis → equal.terminal = .mark .equal → size.terminal = .integer →
        SizePhrase [axis, equal, size] (axis.toName, size.toInt)

/-- A rule for offsets: an axis, the word or the mark of a direction, and a magnitude. -/
inductive OffsetPhrase : List Token → OffsetRule → Prop where
  | mk {axis word magnitude : Token} {direction : Direction} :
      axis.IsAxis → word.terminal = direction.terminal → magnitude.terminal = .integer →
        OffsetPhrase [axis, word, magnitude] ⟨axis.toName, direction, magnitude.toInt⟩

/-- An attribute: the word for the default, or a key with a token in parentheses. -/
inductive AttributePhrase : List Token → Attribute → Prop where
  | defaultMark {word : Token} :
      word.terminal = .keyword .defaultWord → AttributePhrase [word] .defaultMark
  | keyed {key opened token closed : Token} :
      key.terminal = .name → opened.terminal = .mark .openParen → token.terminal = .name →
        closed.terminal = .mark .closeParen →
          AttributePhrase [key, opened, token, closed] (.keyed key.toName token.toName)

/-- The attributes of a state: several in parentheses, with commas, or one alone. -/
inductive AttributesPhrase : List Token → List Attribute → Prop where
  | grouped {opened closed : Token} {tokens : List Token} {marks : List Attribute} :
      opened.terminal = .mark .openParen → Series Comma AttributePhrase tokens marks →
        closed.terminal = .mark .closeParen →
          AttributesPhrase ([opened] ++ tokens ++ [closed]) marks
  | alone {tokens : List Token} {mark : Attribute} :
      AttributePhrase tokens mark → AttributesPhrase tokens [mark]

/-- A state, with or without attributes. -/
inductive EntryPhrase : List Token → StateEntry → Prop where
  | plain {name : Token} : name.terminal = .name → EntryPhrase [name] ⟨name.toName, []⟩
  | marked {name colons : Token} {tokens : List Token} {marks : List Attribute} :
      name.terminal = .name → colons.terminal = .mark .colons → AttributesPhrase tokens marks →
        EntryPhrase ([name, colons] ++ tokens) ⟨name.toName, marks⟩

/-! ## Rules -/

/-- One operand stands for itself, several form a node. -/
def gathered (node : List (Condition (CountTest Name)) → Condition (CountTest Name)) :
    List (Condition (CountTest Name)) → Condition (CountTest Name)
  | [single] => single
  | several => node several

/-- What a part of a condition is read as: the alternatives of a disjunction, the operands
of a conjunction, or one operand. -/
inductive Reading where
  | disjunction (alternatives : List (Condition (CountTest Name)))
  | conjunction (operands : List (Condition (CountTest Name)))
  | operand (operand : Condition (CountTest Name))

/-- A part of a condition. The alternatives of a disjunction are conjunctions, and the operands of a
conjunction are negations, conditions in parentheses, and tests. -/
inductive ConditionPhrase : List Token → Reading → Prop where
  | alternative {tokens : List Token} {operands : List (Condition (CountTest Name))} :
      ConditionPhrase tokens (.conjunction operands) →
        ConditionPhrase tokens (.disjunction [gathered .all operands])
  | alternatives {before tokens : List Token} {bar : Token}
      {earlier operands : List (Condition (CountTest Name))} :
      ConditionPhrase before (.disjunction earlier) → bar.terminal = .mark .bar →
        ConditionPhrase tokens (.conjunction operands) →
          ConditionPhrase (before ++ [bar] ++ tokens)
            (.disjunction (earlier ++ [gathered .all operands]))
  | operand {tokens : List Token} {c : Condition (CountTest Name)} :
      ConditionPhrase tokens (.operand c) → ConditionPhrase tokens (.conjunction [c])
  | operands {before tokens : List Token} {ampersand : Token}
      {earlier : List (Condition (CountTest Name))} {c : Condition (CountTest Name)} :
      ConditionPhrase before (.conjunction earlier) → ampersand.terminal = .mark .ampersand →
        ConditionPhrase tokens (.operand c) →
          ConditionPhrase (before ++ [ampersand] ++ tokens) (.conjunction (earlier ++ [c]))
  | negation {bang : Token} {tokens : List Token} {c : Condition (CountTest Name)} :
      bang.terminal = .mark .bang → ConditionPhrase tokens (.operand c) →
        ConditionPhrase ([bang] ++ tokens) (.operand (.not c))
  | parentheses {opened closed : Token} {tokens : List Token}
      {alternatives : List (Condition (CountTest Name))} :
      opened.terminal = .mark .openParen → ConditionPhrase tokens (.disjunction alternatives) →
        closed.terminal = .mark .closeParen →
          ConditionPhrase ([opened] ++ tokens ++ [closed]) (.operand (gathered .any alternatives))
  | test {word opened state closed symbol bound : Token} {comparison : Comparison} :
      word.terminal = .keyword .neighborhood → opened.terminal = .mark .openParen →
        state.terminal = .name → closed.terminal = .mark .closeParen →
          symbol.terminal = .comparison → Comparison.ofSymbol? symbol.text = some comparison →
            bound.terminal = .integer →
              ConditionPhrase [word, opened, state, closed, symbol, bound]
                (.operand (.test ⟨comparison, state.toName, bound.toInt⟩))

/-- A rule: the state it changes, the state it changes into, and its condition. -/
inductive RulePhrase : List Token → Rule Name → Prop where
  | mk {origin source into target assign : Token} {tokens : List Token}
      {alternatives : List (Condition (CountTest Name))} :
      origin.terminal = .keyword .fromWord → source.terminal = .name →
        into.terminal = .keyword .toWord → target.terminal = .name →
          assign.terminal = .mark .assign → ConditionPhrase tokens (.disjunction alternatives) →
            RulePhrase ([origin, source, into, target, assign] ++ tokens)
              ⟨source.toName, target.toName, gathered .any alternatives⟩

/-! ## Programs -/

/-- What a declaration assigns. Blocks of offsets, of states and of rules begin with the same
brace. -/
inductive ValuePhrase : List Token → Value → Prop where
  | environment {rank : Token} :
      rank.terminal = .dimensionality → ValuePhrase [rank] (.environment ⟨rank.toRank, []⟩)
  | sizes {rank colons opened closed : Token} {tokens : List Token} {sizes : List (Name × Int)} :
      rank.terminal = .dimensionality → colons.terminal = .mark .colons →
        opened.terminal = .mark .openParen → Series Comma SizePhrase tokens sizes →
          closed.terminal = .mark .closeParen →
            ValuePhrase ([rank, colons, opened] ++ tokens ++ [closed])
              (.environment ⟨rank.toRank, sizes⟩)
  | moore {word : Token} :
      word.terminal = .keyword .moore → ValuePhrase [word] (.neighborhood .moore)
  | vonNeumann {word : Token} :
      word.terminal = .keyword .vonNeumann → ValuePhrase [word] (.neighborhood .vonNeumann)
  | offsets {opened closed : Token} {tokens : List Token} {rules : List OffsetRule} :
      opened.terminal = .mark .openBrace → Series OptionalComma OffsetPhrase tokens rules →
        closed.terminal = .mark .closeBrace →
          ValuePhrase ([opened] ++ tokens ++ [closed]) (.neighborhood (.custom rules))
  | void {word : Token} : word.terminal = .keyword .void → ValuePhrase [word] (.boundary .void)
  | wrap {word : Token} : word.terminal = .keyword .wrap → ValuePhrase [word] (.boundary .wrap)
  | static {word : Token} :
      word.terminal = .keyword .static → ValuePhrase [word] (.boundary (.static none))
  | staticState {word colons opened state closed : Token} :
      word.terminal = .keyword .static → colons.terminal = .mark .colons →
        opened.terminal = .mark .openParen → state.terminal = .name →
          closed.terminal = .mark .closeParen →
            ValuePhrase [word, colons, opened, state, closed]
              (.boundary (.static (some state.toName)))
  | states {opened closed : Token} {tokens : List Token} {entries : List StateEntry} :
      opened.terminal = .mark .openBrace → Series NoSeparator EntryPhrase tokens entries →
        closed.terminal = .mark .closeBrace →
          ValuePhrase ([opened] ++ tokens ++ [closed]) (.states entries)
  | rules {opened closed : Token} {tokens : List Token} {rules : List (Rule Name)} :
      opened.terminal = .mark .openBrace → Repeated RulePhrase tokens rules →
        closed.terminal = .mark .closeBrace →
          ValuePhrase ([opened] ++ tokens ++ [closed]) (.rules rules)

/-- A token that may stand for a key. -/
def Token.IsKey (token : Token) : Prop :=
  token.terminal = .name ∨ token.terminal = .keyword .neighborhood

/-- A declaration: a key and its value. -/
inductive DeclarationPhrase : List Token → Declaration → Prop where
  | mk {key assign : Token} {tokens : List Token} {value : Value} :
      key.IsKey → assign.terminal = .mark .assign → ValuePhrase tokens value →
        DeclarationPhrase ([key, assign] ++ tokens) ⟨key.toName, value⟩

/-- The tokens of a whole program. -/
def Sentence (tokens : List Token) (program : List Declaration) : Prop :=
  Repeated DeclarationPhrase tokens program

end Cellular
