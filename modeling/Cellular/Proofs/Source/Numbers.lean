import Cellular.Proofs.Source.Names
import Cellular.Proofs.Text.Digits

/-!
# Numbers of programs

The numbers of a program are those of the integers among its tokens, in the order of the text.
An integer that is not too long stands for a number that can be written. So the numbers of a
program that was read can be written; and if all its numbers can be written, the program is
also read from the tokens in which every integer is the written form of its number.
-/

namespace Cellular

/-! ## The numbers of a program -/

/-- The declared sizes of an environment. -/
def Environment.numbers (space : Environment) : List Int :=
  space.sizes.map Prod.snd

/-- The magnitudes of the rules of a neighbourhood. -/
def Neighborhood.numbers : Neighborhood → List Int
  | moore | vonNeumann => []
  | custom rules => rules.map OffsetRule.magnitude

/-- The bounds of a condition, from left to right. -/
def Condition.numbers (c : Condition (CountTest Name)) : List Int :=
  c.tests.map CountTest.bound

/-- The numbers of what is declared, in the order of the text. -/
def Value.numbers : Value → List Int
  | environment space => space.numbers
  | neighborhood shape => shape.numbers
  | boundary _ | states _ => []
  | rules block => block.flatMap fun rule => rule.condition.numbers

/-- The numbers of a program in the order of the text. -/
def numbersOf (program : List Declaration) : List Int :=
  program.flatMap fun declaration => declaration.value.numbers

/-- The number of an integer. -/
def Token.number? (token : Token) : Option Int :=
  if token.terminal = .integer then some token.toInt else none

/-- The numbers of the integers among some tokens. -/
def tokenNumbers (tokens : List Token) : List Int :=
  tokens.filterMap Token.number?

theorem tokenNumbers_append (before tokens : List Token) :
    tokenNumbers (before ++ tokens) = tokenNumbers before ++ tokenNumbers tokens :=
  List.filterMap_append

@[simp]
theorem tokenNumbers_nil : tokenNumbers [] = [] :=
  rfl

theorem tokenNumbers_cons_of_integer {token : Token} (isInteger : token.terminal = .integer)
    (tokens : List Token) : tokenNumbers (token :: tokens) = token.toInt :: tokenNumbers tokens :=
  List.filterMap_cons_some (if_pos isInteger)

theorem tokenNumbers_cons_of_ne {token : Token} (other : token.terminal ≠ .integer)
    (tokens : List Token) : tokenNumbers (token :: tokens) = tokenNumbers tokens :=
  List.filterMap_cons_none (if_neg other)

theorem toInt_mem_tokenNumbers {token : Token} {tokens : List Token} (member : token ∈ tokens)
    (isInteger : token.terminal = .integer) : token.toInt ∈ tokenNumbers tokens :=
  List.mem_filterMap.mpr ⟨token, member, if_pos isInteger⟩

theorem exists_of_mem_tokenNumbers {n : Int} {tokens : List Token}
    (member : n ∈ tokenNumbers tokens) :
    ∃ token ∈ tokens, token.terminal = .integer ∧ token.toInt = n := by
  rcases List.mem_filterMap.mp member with ⟨token, isToken, number⟩
  rw [Token.number?] at number
  split at number
  · rename_i isInteger
    exact ⟨token, isToken, isInteger, Option.some.inj number⟩
  · exact absurd number nofun

/-! ## Numbers are integers of the text -/

section Lists

variable {α : Type} {numbers : α → List Int}

theorem Repeated.tokenNumbers_eq {phrase : List Token → α → Prop} {tokens : List Token}
    {items : List α} (repeated : Repeated phrase tokens items)
    (each : ∀ tokens item, phrase tokens item → tokenNumbers tokens = numbers item) :
    tokenNumbers tokens = items.flatMap numbers := by
  induction repeated with
  | nil => rfl
  | snoc _ last ih =>
      rw [tokenNumbers_append, ih, each _ _ last, List.flatMap_append, List.flatMap_singleton]

theorem Series.tokenNumbers_eq {separator : List Token → Prop} {phrase : List Token → α → Prop}
    {tokens : List Token} {items : List α} (series : Series separator phrase tokens items)
    (none : ∀ tokens, separator tokens → tokenNumbers tokens = [])
    (each : ∀ tokens item, phrase tokens item → tokenNumbers tokens = numbers item) :
    tokenNumbers tokens = items.flatMap numbers := by
  induction series with
  | single phrase => rw [each _ _ phrase, List.flatMap_singleton]
  | snoc _ separator last ih =>
      rw [tokenNumbers_append, tokenNumbers_append, ih, none _ separator, each _ _ last,
        List.flatMap_append, List.flatMap_singleton, List.append_nil]

end Lists

theorem Comma.tokenNumbers_eq (tokens : List Token) (comma : Comma tokens) :
    tokenNumbers tokens = [] := by
  cases comma with
  | mk isComma => exact tokenNumbers_cons_of_ne (isComma ▸ nofun) []

theorem OptionalComma.tokenNumbers_eq (tokens : List Token) (comma : OptionalComma tokens) :
    tokenNumbers tokens = [] := by
  cases comma with
  | absent => rfl
  | present isComma => exact tokenNumbers_cons_of_ne (isComma ▸ nofun) []

theorem Token.IsAxis.ne_integer {token : Token} (isAxis : token.IsAxis) :
    token.terminal ≠ .integer := by
  rcases isAxis with isName | isStar
  · simp [isName]
  · simp [isStar]

theorem Token.IsKey.ne_integer {token : Token} (isKey : token.IsKey) :
    token.terminal ≠ .integer := by
  rcases isKey with isName | isKeyword
  · simp [isName]
  · simp [isKeyword]

theorem Direction.terminal_ne_integer (direction : Direction) :
    direction.terminal ≠ .integer := by
  cases direction <;> simp [terminal]

theorem SizePhrase.tokenNumbers_eq (tokens : List Token) (size : Name × Int)
    (phrase : SizePhrase tokens size) : tokenNumbers tokens = [size.2] := by
  cases phrase with
  | mk isAxis isEqual isInteger =>
      rw [tokenNumbers_cons_of_ne isAxis.ne_integer, tokenNumbers_cons_of_ne (isEqual ▸ nofun),
        tokenNumbers_cons_of_integer isInteger, tokenNumbers_nil]

theorem OffsetPhrase.tokenNumbers_eq (tokens : List Token) (rule : OffsetRule)
    (phrase : OffsetPhrase tokens rule) : tokenNumbers tokens = [rule.magnitude] := by
  cases phrase with
  | @mk _ _ _ direction isAxis isDirection isInteger =>
      rw [tokenNumbers_cons_of_ne isAxis.ne_integer,
        tokenNumbers_cons_of_ne (isDirection ▸ direction.terminal_ne_integer),
        tokenNumbers_cons_of_integer isInteger, tokenNumbers_nil]

theorem AttributesPhrase.tokenNumbers_eq (tokens : List Token) (marks : List Attribute)
    (phrase : AttributesPhrase tokens marks) : tokenNumbers tokens = [] := by
  have single (tokens : List Token) (mark : Attribute) (phrase : AttributePhrase tokens mark) :
      tokenNumbers tokens = [] := by
    cases phrase <;> simp [tokenNumbers, Token.number?, *]
  cases phrase with
  | grouped isOpen series isClosed =>
      have inner := series.tokenNumbers_eq Comma.tokenNumbers_eq single
      simp only [tokenNumbers_append, inner]
      simp [tokenNumbers, Token.number?, *]
  | alone phrase => exact single _ _ phrase

theorem EntryPhrase.tokenNumbers_eq (tokens : List Token) (entry : StateEntry)
    (phrase : EntryPhrase tokens entry) : tokenNumbers tokens = [] := by
  cases phrase with
  | plain isName => exact tokenNumbers_cons_of_ne (isName ▸ nofun) []
  | marked isName isColons phrase =>
      rw [tokenNumbers_append, AttributesPhrase.tokenNumbers_eq _ _ phrase, List.append_nil,
        tokenNumbers_cons_of_ne (isName ▸ nofun), tokenNumbers_cons_of_ne (isColons ▸ nofun),
        tokenNumbers_nil]

theorem Condition.numbers_gathered
    {node : List (Condition (CountTest Name)) → Condition (CountTest Name)}
    (flat : ∀ cs, (node cs).tests = cs.flatMap tests) (cs : List (Condition (CountTest Name))) :
    (gathered node cs).numbers = cs.flatMap numbers := by
  rw [numbers, tests_gathered flat, List.map_flatMap]
  rfl

/-- The numbers of a part of a condition. -/
def Reading.numbers : Reading → List Int
  | disjunction alternatives => alternatives.flatMap Condition.numbers
  | conjunction operands => operands.flatMap Condition.numbers
  | operand c => c.numbers

theorem ConditionPhrase.tokenNumbers_eq {tokens : List Token} {reading : Reading}
    (phrase : ConditionPhrase tokens reading) : tokenNumbers tokens = reading.numbers := by
  induction phrase with
  | alternative _ ih =>
      rw [Reading.numbers, List.flatMap_singleton, Condition.numbers_gathered Condition.tests_all]
      exact ih
  | alternatives _ isBar _ first last =>
      rw [Reading.numbers, List.flatMap_append, List.flatMap_singleton,
        Condition.numbers_gathered Condition.tests_all, tokenNumbers_append, tokenNumbers_append,
        first, last, tokenNumbers_cons_of_ne (isBar ▸ nofun), tokenNumbers_nil, List.append_nil]
      rfl
  | operand _ ih =>
      rw [Reading.numbers, List.flatMap_singleton]
      exact ih
  | operands _ isAmpersand _ first last =>
      rw [Reading.numbers, List.flatMap_append, List.flatMap_singleton, tokenNumbers_append,
        tokenNumbers_append, first, last, tokenNumbers_cons_of_ne (isAmpersand ▸ nofun),
        tokenNumbers_nil, List.append_nil]
      rfl
  | negation isBang _ ih =>
      rw [tokenNumbers_append, tokenNumbers_cons_of_ne (isBang ▸ nofun)]
      exact ih
  | parentheses isOpen _ isClosed ih =>
      rw [Reading.numbers, Condition.numbers_gathered Condition.tests_any, tokenNumbers_append,
        tokenNumbers_append, ih, tokenNumbers_cons_of_ne (isOpen ▸ nofun),
        tokenNumbers_cons_of_ne (isClosed ▸ nofun), tokenNumbers_nil, List.append_nil]
      rfl
  | test isWord isOpen isState isClosed isSymbol _ isInteger =>
      rw [tokenNumbers_cons_of_ne (isWord ▸ nofun), tokenNumbers_cons_of_ne (isOpen ▸ nofun),
        tokenNumbers_cons_of_ne (isState ▸ nofun), tokenNumbers_cons_of_ne (isClosed ▸ nofun),
        tokenNumbers_cons_of_ne (isSymbol ▸ nofun), tokenNumbers_cons_of_integer isInteger]
      rfl

theorem RulePhrase.tokenNumbers_eq (tokens : List Token) (rule : Rule Name)
    (phrase : RulePhrase tokens rule) : tokenNumbers tokens = rule.condition.numbers := by
  cases phrase with
  | mk isOrigin isSource isInto isTarget isAssign condition =>
      rw [Condition.numbers_gathered Condition.tests_any, tokenNumbers_append,
        condition.tokenNumbers_eq, tokenNumbers_cons_of_ne (isOrigin ▸ nofun),
        tokenNumbers_cons_of_ne (isSource ▸ nofun), tokenNumbers_cons_of_ne (isInto ▸ nofun),
        tokenNumbers_cons_of_ne (isTarget ▸ nofun), tokenNumbers_cons_of_ne (isAssign ▸ nofun)]
      rfl

/-- Brackets around a phrase are no numbers. -/
theorem tokenNumbers_enclosed {opened closed : Token} {m n : Mark}
    (isOpen : opened.terminal = .mark m) (tokens : List Token)
    (isClosed : closed.terminal = .mark n) :
    tokenNumbers ([opened] ++ tokens ++ [closed]) = tokenNumbers tokens := by
  rw [tokenNumbers_append, tokenNumbers_append, tokenNumbers_cons_of_ne (isOpen ▸ nofun),
    tokenNumbers_cons_of_ne (isClosed ▸ nofun), tokenNumbers_nil, List.append_nil, List.nil_append]

theorem ValuePhrase.tokenNumbers_eq {tokens : List Token} {value : Value}
    (phrase : ValuePhrase tokens value) : tokenNumbers tokens = value.numbers := by
  cases phrase with
  | environment isWord | moore isWord | vonNeumann isWord | void isWord | wrap isWord
  | static isWord => exact tokenNumbers_cons_of_ne (isWord ▸ nofun) []
  | @sizes rank colons opened closed tokens sizes isRank isColons isOpen series isClosed =>
      have inner := series.tokenNumbers_eq Comma.tokenNumbers_eq SizePhrase.tokenNumbers_eq
      have whole := tokenNumbers_enclosed isOpen tokens isClosed
      rw [inner, ← List.map_eq_flatMap] at whole
      rw [List.cons_append, List.cons_append, List.cons_append, List.cons_append,
        tokenNumbers_cons_of_ne (isRank ▸ nofun), tokenNumbers_cons_of_ne (isColons ▸ nofun)]
      exact whole
  | offsets isOpen series isClosed =>
      rw [tokenNumbers_enclosed isOpen _ isClosed,
        series.tokenNumbers_eq OptionalComma.tokenNumbers_eq OffsetPhrase.tokenNumbers_eq,
        ← List.map_eq_flatMap]
      rfl
  | staticState isWord isColons isOpen isState isClosed =>
      rw [tokenNumbers_cons_of_ne (isWord ▸ nofun), tokenNumbers_cons_of_ne (isColons ▸ nofun),
        tokenNumbers_cons_of_ne (isOpen ▸ nofun), tokenNumbers_cons_of_ne (isState ▸ nofun),
        tokenNumbers_cons_of_ne (isClosed ▸ nofun)]
      rfl
  | @states _ _ tokens entries isOpen series isClosed =>
      have none (tokens : List Token) (between : NoSeparator tokens) :
          tokenNumbers tokens = [] := by
        cases between
        rfl
      rw [tokenNumbers_enclosed isOpen _ isClosed,
        series.tokenNumbers_eq none EntryPhrase.tokenNumbers_eq]
      exact List.flatMap_eq_nil_iff.mpr fun _ _ => rfl
  | rules isOpen repeated isClosed =>
      rw [tokenNumbers_enclosed isOpen _ isClosed,
        repeated.tokenNumbers_eq RulePhrase.tokenNumbers_eq]
      rfl

/-- The numbers of a program are those of the integers of its sentence, in their order. -/
theorem Sentence.tokenNumbers_eq {tokens : List Token} {program : List Declaration}
    (sentence : Sentence tokens program) : tokenNumbers tokens = numbersOf program := by
  refine Repeated.tokenNumbers_eq sentence fun tokens declaration phrase => ?_
  cases phrase with
  | mk isKey isAssign value =>
      rw [tokenNumbers_append, value.tokenNumbers_eq, tokenNumbers_cons_of_ne isKey.ne_integer,
        tokenNumbers_cons_of_ne (isAssign ▸ nofun)]
      rfl

/-! ## Places do not matter -/

theorem Condition.numbers_anchored (c : Condition (CountTest Name)) :
    c.anchored.numbers = c.numbers := by
  rw [numbers, tests_map, List.map_map]
  rfl

theorem Value.numbers_anchored (value : Value) : value.anchored.numbers = value.numbers := by
  cases value with
  | environment space => exact List.map_map
  | neighborhood shape =>
      cases shape with
      | custom rules => exact List.map_map
      | _ => rfl
  | rules block =>
      simp only [map, numbers, List.flatMap_map, Rule.map, Condition.numbers_anchored]
  | _ => rfl

/-- Programs that are the same but for the places of their names have the same numbers. -/
theorem numbersOf_congr {first second : List Declaration}
    (same : first.map Declaration.anchored = second.map Declaration.anchored) :
    numbersOf first = numbersOf second := by
  have moved (program : List Declaration) :
      numbersOf (program.map Declaration.anchored) = numbersOf program := by
    simp only [numbersOf, List.flatMap_map, Declaration.map, Value.numbers_anchored]
  rw [← moved first, same, moved second]

/-! ## Integers of limited length -/

theorem toNat_sub_le_of_isDigit {c : Char} (digit : c.isDigit = true) :
    c.toNat - '0'.toNat ≤ 9 := by
  simp only [Char.isDigit, Bool.and_eq_true, decide_eq_true_eq, UInt32.le_iff_toNat_le] at digit
  have above : c.toNat ≤ 57 := digit.2
  exact Nat.sub_le_sub_right above 48

/-- Digits stand for less than the power of ten with as many zeros. -/
theorem ofDigitChars_lt {digits : List Char} (inside : ∀ c ∈ digits, c.isDigit = true) :
    Nat.ofDigitChars 10 digits 0 < 10 ^ digits.length := by
  induction digits with
  | nil => exact Nat.one_pos
  | cons c digits ih =>
      rcases List.forall_mem_cons.mp inside with ⟨first, others⟩
      rw [Nat.ofDigitChars_cons, Nat.ofDigitChars_eq_ofDigitChars_zero, List.length_cons,
        Nat.pow_succ, Nat.mul_zero, Nat.zero_add]
      have leading := Nat.mul_le_mul_left (10 ^ digits.length) (toNat_sub_le_of_isDigit first)
      have following := ih others
      omega

/-- An integer that is not too long stands for a number that can be written. -/
theorem Token.isWritable_toInt {token : Token} (isInteger : token.terminal = .integer)
    (spelled : token.Spelled) (short : token.isOverlong = false) :
    isWritable token.toInt = true := by
  rw [Token.Spelled, isInteger] at spelled
  rcases spelled with ⟨digits, chars, _, inside⟩
  have count : digits.length ≤ greatestDigits := by
    simp only [isOverlong, isInteger, decide_true, Bool.true_and, decide_eq_false_iff_not,
      Nat.not_lt] at short
    refine Nat.le_trans (Nat.le_of_eq ?_) short
    have all := List.countP_eq_length.mpr inside
    rcases chars with plain | signed
    · rw [Token.digits, plain, all]
    · rw [Token.digits, signed, List.countP_cons_of_neg (by decide), all]
  have value : token.toInt.natAbs = Nat.ofDigitChars 10 digits 0 := by
    rw [toInt]
    rcases chars with plain | signed
    · rw [plain]
      split
      · exact absurd (inside '-' List.mem_cons_self) (by decide)
      · rfl
    · rw [signed]
      exact Int.natAbs_neg _
  rw [isWritable_iff, value]
  exact Nat.lt_of_lt_of_le (ofDigitChars_lt inside) (Nat.pow_le_pow_right (by decide) count)

/-- A number that can be written has a written form that is not too long. -/
theorem integerToken_isOverlong {n : Int} (writable : isWritable n = true) :
    (integerToken n).isOverlong = false := by
  have digits : (integerToken n).digits = digitCount n := by
    cases n with
    | ofNat n =>
        rw [Token.digits, integerToken_ofNat, List.countP_eq_length.mpr (digits_are_digits n)]
        rfl
    | negSucc n =>
        rw [Token.digits, integerToken_negSucc, List.countP_cons_of_neg (by decide),
          List.countP_eq_length.mpr (digits_are_digits (n + 1))]
        rfl
  rw [Token.isOverlong, digits, decide_eq_false (Nat.not_lt.mpr (of_decide_eq_true writable)),
    Bool.and_false]

/-! ## Tokens with their numbers written anew -/

/-- The token, written anew if it is an integer. -/
def Token.rewritten (token : Token) : Token :=
  if token.terminal = .integer then integerToken token.toInt else token

namespace Place

/-- How an integer is written does not matter for the step that is taken with it. -/
theorem step_rewritten (place : Place) (token : Token) :
    place.step token.rewritten = place.step token := by
  rw [Token.rewritten]
  split
  · rename_i isInteger
    have same : (integerToken token.toInt).terminal = .integer := rfl
    cases place <;> simp only [step, keyed, directed, nextEntry, marked, continued, isInteger, same,
      integerToken_toInt]
  · rfl

end Place

theorem Run.rewritten {start final : Place} {tokens : List Token} (run : Run start tokens final) :
    Run start (tokens.map Token.rewritten) final := by
  induction run with
  | done => exact .done
  | @token place next final token tokens admits stepped _ ih =>
      rw [← Place.step_rewritten] at stepped
      refine .token ?_ stepped ih
      rw [Token.rewritten]
      split
      · rename_i isInteger
        have sought := admits.sought
        rw [isInteger] at sought
        exact ⟨sought, integerToken_spelled _, nofun⟩
      · exact admits

/-- A program whose numbers can be written is read from a text with short integers. -/
theorem Run.exists_readSource {final : Place} {tokens : List Token} {program : List Declaration}
    (run : Run (.between []) tokens final) (finished : final.finish? = some program)
    (writable : ∀ n ∈ numbersOf program, isWritable n = true) :
    ∃ source read, readSource source = .ok read ∧
      read.map Declaration.anchored = program.map Declaration.anchored := by
  have short : AllShort (tokens.map Token.rewritten) := by
    rw [← (run.sentence finished).tokenNumbers_eq] at writable
    refine List.forall_mem_map.mpr fun token member => ?_
    rw [Token.rewritten]
    split
    · rename_i isInteger
      exact integerToken_isOverlong (writable _ (toInt_mem_tokenNumbers member isInteger))
    · rename_i other
      rw [Token.isOverlong, decide_eq_false other, Bool.false_and]
  exact ⟨_, run.rewritten.readSource_of_allShort finished (laid_spaced _) short⟩

/-- The numbers of a program that was read can be written. -/
theorem isWritable_of_readSource {source : String} {program : List Declaration}
    (accepted : readSource source = .ok program) :
    ∀ n ∈ numbersOf program, isWritable n = true := by
  rcases readSource_eq_ok_iff.mp accepted with ⟨tokens, reads, short⟩
  rcases reads.run with ⟨final, run, finished⟩
  intro n member
  rw [← (run.sentence finished).tokenNumbers_eq] at member
  rcases exists_of_mem_tokenNumbers member with ⟨token, isToken, isInteger, rfl⟩
  exact token.isWritable_toInt isInteger (run.spelled token isToken) (short token isToken)

end Cellular
