import Cellular.Source.Declaration
import Cellular.Source.Token

/-!
# Places in an unfinished program

The reader is always at some place in a program that is not finished yet. A place
knows everything that was read so far: the finished declarations, and the parts of
the declaration that is still open. It says which terminals to look for next, and a
token leads from one place to the next.

What is looked for is decided by the phrase that has just been read: a place looks
for every terminal that may follow such a phrase in some program. A token that was
found this way may still not fit, because of what encloses the phrase; then the
place names the terminals that would have fitted.

Lists of finished parts are kept with the latest part first.
-/

namespace Cellular

/-! ## Unfinished conditions -/

/-- One level of a condition: the finished operands of the disjunction, the finished
operands of its last conjunction, and the number of negations that wait for the next
operand. -/
structure Level where
  alternatives : List (Condition (CountTest Name)) := []
  conjuncts : List (Condition (CountTest Name)) := []
  negations : Nat := 0

/-- A single operand stands for itself, several form one node. The operands come
latest first. -/
def joined (node : List (Condition (CountTest Name)) → Condition (CountTest Name)) :
    List (Condition (CountTest Name)) → Condition (CountTest Name)
  | [single] => single
  | several => node several.reverse

/-- A condition under a number of negations. -/
def negated : Nat → Condition (CountTest Name) → Condition (CountTest Name)
  | 0, c => c
  | n + 1, c => .not (negated n c)

namespace Level

/-- One more negation before the next operand. -/
def negate (level : Level) : Level :=
  { level with negations := level.negations + 1 }

/-- The next operand is finished. -/
def operand (level : Level) (c : Condition (CountTest Name)) : Level :=
  { level with conjuncts := negated level.negations c :: level.conjuncts, negations := 0 }

/-- The last conjunction is finished and another alternative begins. -/
def alternative (level : Level) : Level :=
  { level with
    alternatives := joined .all level.conjuncts :: level.alternatives
    conjuncts := [] }

/-- The condition that the level holds when its last operand is finished. -/
def close (level : Level) : Condition (CountTest Name) :=
  joined .any (joined .all level.conjuncts :: level.alternatives)

end Level

/-! ## Unfinished declarations -/

/-- The declarations before an open one, and its key. -/
structure Opening where
  earlier : List Declaration
  key : Name

/-- A state whose attributes are being read, in a block of states. -/
structure OpenState where
  opening : Opening
  earlier : List StateEntry
  name : Name

/-- An attribute list: one attribute alone, or any number in parentheses, of which
the given ones are finished. -/
inductive AttributeList where
  | alone
  | grouped (finished : List Attribute)

/-- A rule whose condition is being read: the level that is being read and the
levels that enclose it, innermost first. -/
structure OpenRule where
  opening : Opening
  earlier : List (Rule Name)
  source : Name
  target : Name
  level : Level
  outer : List Level

/-- The places in an unfinished program. -/
inductive Place where
  /-- Between declarations. -/
  | between (finished : List Declaration)
  /-- After a key. -/
  | key (opening : Opening)
  /-- After `:=`. -/
  | value (opening : Opening)
  /-- After a dimensionality. -/
  | rank (opening : Opening) (rank : Nat)
  /-- After the `::` of an environment. -/
  | sizesOpen (opening : Opening) (rank : Nat)
  /-- Before a size. -/
  | size (opening : Opening) (rank : Nat) (sizes : List (Name × Int))
  /-- After the axis of a size. -/
  | sizeAxis (opening : Opening) (rank : Nat) (sizes : List (Name × Int)) (axis : Name)
  /-- After the `=` of a size. -/
  | sizeEqual (opening : Opening) (rank : Nat) (sizes : List (Name × Int)) (axis : Name)
  /-- After a size. -/
  | sizeEnd (opening : Opening) (rank : Nat) (sizes : List (Name × Int))
  /-- After `static`. -/
  | static (opening : Opening)
  /-- After the `::` of a static boundary. -/
  | staticColons (opening : Opening)
  /-- Before the state of a static boundary. -/
  | staticOpen (opening : Opening)
  /-- After the state of a static boundary. -/
  | staticState (opening : Opening) (state : Name)
  /-- After an opening bracket, when the kind of the block is still open. -/
  | block (opening : Opening)
  /-- After the first name of a block, which is an axis or a state. -/
  | firstName (opening : Opening) (name : Name)
  /-- Before the axis of an offset rule that must come. -/
  | offset (opening : Opening) (rules : List OffsetRule)
  /-- After the axis of an offset rule. -/
  | offsetAxis (opening : Opening) (rules : List OffsetRule) (axis : Name)
  /-- After the direction of an offset rule. -/
  | offsetDirection (opening : Opening) (rules : List OffsetRule) (axis : Name)
      (direction : Direction)
  /-- After an offset rule. -/
  | offsetEnd (opening : Opening) (rules : List OffsetRule)
  /-- After the name of a state. -/
  | state (entry : OpenState)
  /-- After the `::` of a state. -/
  | stateColons (entry : OpenState)
  /-- Before an attribute in parentheses. -/
  | attributeStart (entry : OpenState) (finished : List Attribute)
  /-- After the key of an attribute. -/
  | attributeKey (entry : OpenState) (list : AttributeList) (key : Name)
  /-- Before the token of an attribute. -/
  | attributeOpen (entry : OpenState) (list : AttributeList) (key : Name)
  /-- After the token of an attribute. -/
  | attributeToken (entry : OpenState) (list : AttributeList) (key token : Name)
  /-- After an attribute. -/
  | attributeEnd (entry : OpenState) (list : AttributeList) (last : Attribute)
  /-- After a state with attributes in parentheses. -/
  | stateEnd (opening : Opening) (entries : List StateEntry)
  /-- After `from`. -/
  | ruleSource (opening : Opening) (rules : List (Rule Name))
  /-- After the first state of a rule. -/
  | ruleTo (opening : Opening) (rules : List (Rule Name)) (source : Name)
  /-- After `to`. -/
  | ruleTarget (opening : Opening) (rules : List (Rule Name)) (source : Name)
  /-- After the second state of a rule. -/
  | ruleAssign (opening : Opening) (rules : List (Rule Name)) (source target : Name)
  /-- Before an operand of a condition. -/
  | operand (rule : OpenRule)
  /-- After the word that begins a test. -/
  | test (rule : OpenRule)
  /-- Before the state of a test. -/
  | testOpen (rule : OpenRule)
  /-- After the state of a test. -/
  | testState (rule : OpenRule) (state : Name)
  /-- Before the comparison of a test. -/
  | testComparison (rule : OpenRule) (state : Name)
  /-- Before the bound of a test. -/
  | testBound (rule : OpenRule) (state : Name) (comparison : Comparison)
  /-- After an operand, which is part of the level. -/
  | operandEnd (rule : OpenRule)

namespace Place

/-! ## What to look for -/

/-- What may follow a finished declaration. -/
def afterDeclaration : List Terminal :=
  [.name, .keyword .neighborhood]

/-- What may follow an axis, whatever it belongs to. -/
def afterAxis : List Terminal :=
  [.mark .plus, .mark .minus, .mark .plusMinus, .keyword .within, .mark .equal]

/-- The directions of an offset rule. -/
def directions : List Terminal :=
  [.mark .plus, .mark .minus, .mark .plusMinus, .keyword .within]

/-- The terminals to look for at a place. -/
def wanted : Place → List Terminal
  | between _ => afterDeclaration
  | key _ => [.mark .assign]
  | value _ =>
    [.dimensionality, .keyword .moore, .keyword .vonNeumann, .keyword .void, .keyword .wrap,
      .keyword .static, .mark .openBrace]
  | rank .. | static .. => .mark .colons :: afterDeclaration
  | sizesOpen .. | staticColons .. => [.mark .openParen]
  | size .. | offset .. => [.mark .star, .name]
  | sizeAxis .. | offsetAxis .. => afterAxis
  | sizeEqual .. => [.integer]
  | sizeEnd .. => [.mark .comma, .mark .closeParen]
  | staticOpen .. => [.name]
  | staticState .. => [.mark .closeParen]
  | block .. => [.mark .star, .name, .keyword .fromWord, .mark .closeBrace]
  | firstName .. =>
    .mark .colons :: .name :: .mark .closeBrace :: directions
  | offsetDirection .. => [.integer]
  | offsetEnd .. => [.mark .comma, .mark .star, .name, .mark .closeBrace]
  | state .. => [.mark .colons, .name, .mark .closeBrace]
  | stateColons .. => [.mark .openParen, .name, .keyword .defaultWord]
  | attributeStart .. => [.name, .keyword .defaultWord]
  | attributeKey .. => [.mark .openParen]
  | attributeOpen .. => [.name]
  | attributeToken .. => [.mark .closeParen]
  | attributeEnd .. => [.mark .comma, .name, .mark .closeParen, .mark .closeBrace]
  | stateEnd .. => [.name, .mark .closeBrace]
  | ruleSource .. => [.name]
  | ruleTo .. => [.keyword .toWord]
  | ruleTarget .. => [.name]
  | ruleAssign .. => [.mark .assign]
  | operand .. => [.mark .bang, .mark .openParen, .keyword .neighborhood]
  | test .. => [.mark .openParen]
  | testOpen .. => [.name]
  | testState .. => [.mark .closeParen]
  | testComparison .. => [.comparison]
  | testBound .. => [.integer]
  | operandEnd .. =>
    [.mark .ampersand, .mark .bar, .mark .closeParen, .keyword .fromWord, .mark .closeBrace]

/-- The terminals that would have fitted, for a place whose phrase looks for more
than what encloses it allows. An operand that cannot be followed as it was closes its
condition, so what fits is what may follow the whole condition. -/
def fitting : Place → List Terminal
  | sizeAxis .. => [.mark .equal]
  | offsetAxis .. => directions
  | attributeEnd _ .alone _ => [.name, .mark .closeBrace]
  | attributeEnd _ (.grouped _) _ => [.mark .comma, .mark .closeParen]
  | operandEnd rule =>
    if rule.outer.isEmpty then [.keyword .fromWord, .mark .closeBrace]
    else [.mark .closeParen]
  | place => place.wanted

/-! ## Steps -/

/-- The place after a declaration that is finished with the given value. -/
def declared (opening : Opening) (value : Value) : Place :=
  .between (⟨opening.key, value⟩ :: opening.earlier)

/-- An entry whose attributes are finished, latest attribute first. -/
def entered (entry : OpenState) (attributes : List Attribute) : List StateEntry :=
  ⟨entry.name, attributes.reverse⟩ :: entry.earlier

/-- The declarations of a program that ends at a place. -/
def finish? : Place → Option (List Declaration)
  | between finished => some finished.reverse
  | rank opening r =>
    some (⟨opening.key, .environment ⟨r, []⟩⟩ :: opening.earlier).reverse
  | static opening => some (⟨opening.key, .boundary (.static none)⟩ :: opening.earlier).reverse
  | _ => none

/-- The place after the key of the next declaration. -/
def keyed (earlier : List Declaration) (token : Token) : Option Place :=
  match token.terminal with
  | .name | .keyword .neighborhood => some (.key ⟨earlier, token.toName⟩)
  | _ => none

/-- The place after the direction of an offset rule. -/
def directed (opening : Opening) (rules : List OffsetRule) (axis : Name) (token : Token) :
    Option Place :=
  match token.terminal with
  | .mark .plus => some (.offsetDirection opening rules axis .plus)
  | .mark .minus => some (.offsetDirection opening rules axis .minus)
  | .mark .plusMinus => some (.offsetDirection opening rules axis .plusMinus)
  | .keyword .within => some (.offsetDirection opening rules axis .within)
  | _ => none

/-- The place after what follows a state with its attributes. -/
def nextEntry (opening : Opening) (entries : List StateEntry) (token : Token) :
    Option Place :=
  match token.terminal with
  | .name => some (.state ⟨opening, entries, token.toName⟩)
  | .mark .closeBrace => some (declared opening (.states entries.reverse))
  | _ => none

/-- The place after a word that begins an attribute. -/
def marked (entry : OpenState) (list : AttributeList) (token : Token) : Option Place :=
  match token.terminal with
  | .name => some (.attributeKey entry list token.toName)
  | .keyword .defaultWord => some (.attributeEnd entry list .defaultMark)
  | _ => none

/-- The place after what follows an operand of a condition. -/
def continued (rule : OpenRule) (token : Token) : Option Place :=
  match token.terminal, rule.outer with
  | .mark .ampersand, _ => some (.operand rule)
  | .mark .bar, _ => some (.operand { rule with level := rule.level.alternative })
  | .mark .closeParen, level :: outer =>
    some (.operandEnd { rule with level := level.operand rule.level.close, outer := outer })
  | .keyword .fromWord, [] =>
    some (.ruleSource rule.opening (⟨rule.source, rule.target, rule.level.close⟩ :: rule.earlier))
  | .mark .closeBrace, [] =>
    some (declared rule.opening
      (.rules (⟨rule.source, rule.target, rule.level.close⟩ :: rule.earlier).reverse))
  | _, _ => none

/-- The place that a token leads to, if the token fits. -/
def step (place : Place) (token : Token) : Option Place :=
  match place with
  | between finished => keyed finished token
  | key opening => match token.terminal with
    | .mark .assign => some (.value opening)
    | _ => none
  | value opening => match token.terminal with
    | .dimensionality => some (.rank opening token.toRank)
    | .keyword .moore => some (declared opening (.neighborhood .moore))
    | .keyword .vonNeumann => some (declared opening (.neighborhood .vonNeumann))
    | .keyword .void => some (declared opening (.boundary .void))
    | .keyword .wrap => some (declared opening (.boundary .wrap))
    | .keyword .static => some (.static opening)
    | .mark .openBrace => some (.block opening)
    | _ => none
  | rank opening r => match token.terminal with
    | .mark .colons => some (.sizesOpen opening r)
    | _ => keyed (⟨opening.key, .environment ⟨r, []⟩⟩ :: opening.earlier) token
  | sizesOpen opening r => match token.terminal with
    | .mark .openParen => some (.size opening r [])
    | _ => none
  | size opening r sizes => match token.terminal with
    | .name | .mark .star => some (.sizeAxis opening r sizes token.toName)
    | _ => none
  | sizeAxis opening r sizes axis => match token.terminal with
    | .mark .equal => some (.sizeEqual opening r sizes axis)
    | _ => none
  | sizeEqual opening r sizes axis => match token.terminal with
    | .integer => some (.sizeEnd opening r ((axis, token.toInt) :: sizes))
    | _ => none
  | sizeEnd opening r sizes => match token.terminal with
    | .mark .comma => some (.size opening r sizes)
    | .mark .closeParen => some (declared opening (.environment ⟨r, sizes.reverse⟩))
    | _ => none
  | static opening => match token.terminal with
    | .mark .colons => some (.staticColons opening)
    | _ => keyed (⟨opening.key, .boundary (.static none)⟩ :: opening.earlier) token
  | staticColons opening => match token.terminal with
    | .mark .openParen => some (.staticOpen opening)
    | _ => none
  | staticOpen opening => match token.terminal with
    | .name => some (.staticState opening token.toName)
    | _ => none
  | staticState opening name => match token.terminal with
    | .mark .closeParen => some (declared opening (.boundary (.static (some name))))
    | _ => none
  | block opening => match token.terminal with
    | .mark .star => some (.offsetAxis opening [] token.toName)
    | .name => some (.firstName opening token.toName)
    | .keyword .fromWord => some (.ruleSource opening [])
    | .mark .closeBrace => some (declared opening (.rules []))
    | _ => none
  | firstName opening name => match token.terminal with
    | .mark .colons => some (.stateColons ⟨opening, [], name⟩)
    | .name | .mark .closeBrace => nextEntry opening [⟨name, []⟩] token
    | _ => directed opening [] name token
  | offset opening rules => match token.terminal with
    | .name | .mark .star => some (.offsetAxis opening rules token.toName)
    | _ => none
  | offsetAxis opening rules axis => directed opening rules axis token
  | offsetDirection opening rules axis direction => match token.terminal with
    | .integer => some (.offsetEnd opening (⟨axis, direction, token.toInt⟩ :: rules))
    | _ => none
  | offsetEnd opening rules => match token.terminal with
    | .mark .comma => some (.offset opening rules)
    | .name | .mark .star => some (.offsetAxis opening rules token.toName)
    | .mark .closeBrace => some (declared opening (.neighborhood (.custom rules.reverse)))
    | _ => none
  | state entry => match token.terminal with
    | .mark .colons => some (.stateColons entry)
    | _ => nextEntry entry.opening (entered entry []) token
  | stateColons entry => match token.terminal with
    | .mark .openParen => some (.attributeStart entry [])
    | _ => marked entry .alone token
  | attributeStart entry finished => marked entry (.grouped finished) token
  | attributeKey entry list name => match token.terminal with
    | .mark .openParen => some (.attributeOpen entry list name)
    | _ => none
  | attributeOpen entry list name => match token.terminal with
    | .name => some (.attributeToken entry list name token.toName)
    | _ => none
  | attributeToken entry list name word => match token.terminal with
    | .mark .closeParen => some (.attributeEnd entry list (.keyed name word))
    | _ => none
  | attributeEnd entry .alone last => nextEntry entry.opening (entered entry [last]) token
  | attributeEnd entry (.grouped finished) last => match token.terminal with
    | .mark .comma => some (.attributeStart entry (last :: finished))
    | .mark .closeParen => some (.stateEnd entry.opening (entered entry (last :: finished)))
    | _ => none
  | stateEnd opening entries => nextEntry opening entries token
  | ruleSource opening rules => match token.terminal with
    | .name => some (.ruleTo opening rules token.toName)
    | _ => none
  | ruleTo opening rules source => match token.terminal with
    | .keyword .toWord => some (.ruleTarget opening rules source)
    | _ => none
  | ruleTarget opening rules source => match token.terminal with
    | .name => some (.ruleAssign opening rules source token.toName)
    | _ => none
  | ruleAssign opening rules source target => match token.terminal with
    | .mark .assign => some (.operand ⟨opening, rules, source, target, {}, []⟩)
    | _ => none
  | operand rule => match token.terminal with
    | .mark .bang => some (.operand { rule with level := rule.level.negate })
    | .mark .openParen =>
      some (.operand { rule with level := {}, outer := rule.level :: rule.outer })
    | .keyword .neighborhood => some (.test rule)
    | _ => none
  | test rule => match token.terminal with
    | .mark .openParen => some (.testOpen rule)
    | _ => none
  | testOpen rule => match token.terminal with
    | .name => some (.testState rule token.toName)
    | _ => none
  | testState rule name => match token.terminal with
    | .mark .closeParen => some (.testComparison rule name)
    | _ => none
  | testComparison rule name => match token.terminal with
    | .comparison => (Comparison.ofSymbol? token.text).map (.testBound rule name)
    | _ => none
  | testBound rule name comparison => match token.terminal with
    | .integer =>
      some (.operandEnd { rule with
        level := rule.level.operand (.test ⟨comparison, name, token.toInt⟩) })
    | _ => none
  | operandEnd rule => continued rule token

end Place

end Cellular
