import Cellular.Proofs.Source.Literals
import Cellular.Proofs.Source.Printing

/-!
# The language of the reader

The reader accepts the sentences of the grammar. What it reads from a text is what the
tokens of the text stand for; and a sentence whose names are no keywords is accepted as soon
as its words are kept apart, and stands for one program only. The grammar allows integers of
any length, and a sentence with one that is too long is not accepted.
-/

namespace Cellular

/-! ## Plain tokens -/

/-- A token that is spelled as its terminal asks for, and not like a keyword if it is a
name. -/
structure Token.Plain (token : Token) : Prop where
  spelled : token.Spelled
  ordinary : token.terminal = .name → ∀ k : Keyword, token.text ≠ k.text

/-- All tokens of a list are plain. -/
def AllPlain (tokens : List Token) : Prop :=
  ∀ token ∈ tokens, token.Plain

theorem AllPlain.spelled {tokens : List Token} (plain : AllPlain tokens) : AllSpelled tokens :=
  fun token member => (plain token member).spelled

theorem AllPlain.append_iff {before tokens : List Token} :
    AllPlain (before ++ tokens) ↔ AllPlain before ∧ AllPlain tokens :=
  List.forall_mem_append

theorem AllPlain.cons_iff {token : Token} {tokens : List Token} :
    AllPlain (token :: tokens) ↔ token.Plain ∧ AllPlain tokens :=
  List.forall_mem_cons

/-- A token that is no name is plain if it is spelled as its terminal asks for. -/
theorem Token.Spelled.plain {token : Token} (spelled : token.Spelled)
    (other : token.terminal ≠ .name) : token.Plain :=
  ⟨spelled, fun isName => absurd isName other⟩

theorem Token.Plain.name {text : String} (begins : text.toList.head?.any isNameStart = true)
    (inside : text.toList.tail.all isNamePart = true)
    (ordinary : ∀ k : Keyword, text ≠ k.text) : Token.Plain ⟨.name, text, .start⟩ := by
  refine ⟨?_, fun _ => ordinary⟩
  rw [Token.Spelled]
  generalize text.toList = chars at begins inside
  rcases chars with _ | ⟨c, rest⟩
  · exact absurd begins (by simp)
  · exact ⟨c, rest, rfl, begins, List.all_eq_true.mp inside⟩

/-- What plain tokens make of every phrase, they make of every item of a list. -/
theorem Series.forall_items {α : Type} {separator : List Token → Prop}
    {phrase : List Token → α → Prop} {tokens : List Token} {items : List α}
    (series : Series separator phrase tokens items) (plain : AllPlain tokens)
    {property : α → Prop}
    (each : ∀ tokens item, phrase tokens item → AllPlain tokens → property item) :
    ∀ item ∈ items, property item := by
  induction series with
  | single phrase => exact List.forall_mem_singleton.mpr (each _ _ phrase plain)
  | snoc _ _ phrase ih =>
      simp only [AllPlain.append_iff] at plain
      rcases plain with ⟨⟨first, _⟩, last⟩
      exact List.forall_mem_append.mpr
        ⟨ih first, List.forall_mem_singleton.mpr (each _ _ phrase last)⟩

private theorem offset_clear {tokens : List Token} {rule : OffsetRule}
    (phrase : OffsetPhrase tokens rule) (plain : AllPlain tokens) :
    rule.axis.text ≠ Keyword.fromWord.text := by
  cases phrase with
  | @mk axis word magnitude direction isAxis _ _ =>
      have own := plain axis List.mem_cons_self
      rcases isAxis with isName | isStar
      · exact own.ordinary isName .fromWord
      · have star : axis.toName.text = Mark.star.text := own.spelled.mark_text isStar
        rw [star]
        decide

private theorem attribute_clear {tokens : List Token} {mark : Attribute}
    (phrase : AttributePhrase tokens mark) (plain : AllPlain tokens) : mark.Clear := by
  cases phrase with
  | defaultMark _ => trivial
  | @keyed key opened token closed isName _ _ _ =>
      exact (plain key List.mem_cons_self).ordinary isName .defaultWord

private theorem attributes_clear {tokens : List Token} {marks : List Attribute}
    (phrase : AttributesPhrase tokens marks) (plain : AllPlain tokens) :
    ∀ mark ∈ marks, mark.Clear := by
  cases phrase with
  | alone phrase => exact List.forall_mem_singleton.mpr (attribute_clear phrase plain)
  | grouped _ series _ =>
      simp only [AllPlain.append_iff] at plain
      exact series.forall_items plain.1.2 fun _ _ => attribute_clear

private theorem entry_clear {tokens : List Token} {entry : StateEntry}
    (phrase : EntryPhrase tokens entry) (plain : AllPlain tokens) :
    (∀ k : Keyword, entry.name.text ≠ k.text) ∧ ∀ mark ∈ entry.attributes, mark.Clear := by
  cases phrase with
  | @plain name isName =>
      exact ⟨(plain name List.mem_cons_self).ordinary isName, by simp⟩
  | @marked name colons tokens marks isName _ phrase =>
      rcases AllPlain.append_iff.mp plain with ⟨first, rest⟩
      exact ⟨(first name List.mem_cons_self).ordinary isName, attributes_clear phrase rest⟩

private theorem value_clear {tokens : List Token} {value : Value}
    (phrase : ValuePhrase tokens value) (plain : AllPlain tokens) : value.Clear := by
  cases phrase with
  | @offsets opened closed tokens rules _ series _ =>
      simp only [AllPlain.append_iff] at plain
      have each := series.forall_items plain.1.2 fun _ _ => offset_clear
      exact fun rule first => each rule (List.mem_of_mem_head? first)
  | @states opened closed tokens entries _ series _ =>
      simp only [AllPlain.append_iff] at plain
      have each := series.forall_items plain.1.2 fun _ _ => entry_clear
      refine ⟨fun entry member => (each entry member).2,
        fun entry first => (each entry (List.mem_of_mem_head? first)).1 .fromWord, ?_⟩
      rintro entry next rest rfl _
      exact (each next (by simp)).1 .within
  | _ => trivial

private theorem declaration_clear {tokens : List Token} {declaration : Declaration}
    (phrase : DeclarationPhrase tokens declaration) (plain : AllPlain tokens) :
    (∀ key ∈ tokens.head?, key.terminal = .name → key.text ≠ Keyword.neighborhood.text) ∧
      declaration.value.Clear := by
  cases phrase with
  | @mk key assign tokens value _ _ phrase =>
      rcases AllPlain.append_iff.mp plain with ⟨first, rest⟩
      constructor
      · intro other isFirst isName
        obtain rfl : key = other := Option.some.inj isFirst
        exact (first key List.mem_cons_self).ordinary isName .neighborhood
      · exact value_clear phrase rest

/-! ## Sentences -/

/-- A sentence of plain tokens is a run through the program that it stands for. -/
theorem Sentence.run {tokens : List Token} {program : List Declaration}
    (sentence : Sentence tokens program) (plain : AllPlain tokens) :
    ∃ final, Run (.between []) tokens final ∧ final.finish? = some program := by
  have ended : ∃ final, Run (.between []) tokens final ∧
      final.EndsDeclaration program.reverse := by
    induction sentence with
    | nil => exact ⟨_, .done, Place.between_ends []⟩
    | snoc _ phrase ih =>
        rcases AllPlain.append_iff.mp plain with ⟨first, last⟩
        rcases ih first with ⟨place, run, ends⟩
        rcases declaration_clear phrase last with ⟨keyClear, clear⟩
        rcases phrase.run ends last.spelled keyClear clear with ⟨final, further, ends⟩
        rw [List.reverse_concat]
        exact ⟨final, run.append further, ends⟩
  rcases ended with ⟨final, run, ends⟩
  exact ⟨final, run, by rw [ends.last, List.reverse_reverse]⟩

theorem Run.unique {start first second : Place} {tokens : List Token}
    (run : Run start tokens first) (other : Run start tokens second) : first = second := by
  induction run with
  | done =>
      cases other with
      | done => rfl
  | token _ stepped _ ih =>
      cases other with
      | token _ stepped' rest =>
          obtain rfl := Option.some.inj (stepped.symm.trans stepped')
          exact ih rest

/-! ## A sentence with an integer -/

/-- The tokens of a space with one axis, whose size is written as the given literal. -/
def sizedTokens (literal : String) : List Token :=
  [] ++ ([⟨.name, "environment", .start⟩, Mark.assign.token] ++
    ([⟨.dimensionality, "1D", .start⟩, Mark.colons.token, Mark.openParen.token] ++
      [⟨.name, "x", .start⟩, Mark.equal.token, ⟨.integer, literal, .start⟩] ++
        [Mark.closeParen.token]))

/-- A space with one axis, whose size is declared. -/
def sizedProgram (size : Int) : List Declaration :=
  [⟨⟨"environment", some .start⟩, .environment ⟨1, [(⟨"x", some .start⟩, size)]⟩⟩]

theorem sentence_sizedTokens (literal : String) :
    Sentence (sizedTokens literal) (sizedProgram (Token.toInt ⟨.integer, literal, .start⟩)) := by
  have size : SizePhrase [⟨.name, "x", .start⟩, Mark.equal.token, ⟨.integer, literal, .start⟩] _ :=
    .mk (Or.inl rfl) rfl rfl
  exact .snoc .nil (.mk (Or.inl rfl) rfl (.sizes rfl rfl rfl (.single size) rfl))

theorem plain_sizedTokens {literal : String}
    (spelled : Token.Spelled ⟨.integer, literal, .start⟩) : AllPlain (sizedTokens literal) := by
  have key : Token.Plain ⟨.name, "environment", .start⟩ :=
    .name rfl rfl fun k => by cases k <;> decide
  have rank : Token.Spelled ⟨.dimensionality, "1D", .start⟩ := ⟨'1', Or.inl rfl, rfl⟩
  have axis : Token.Plain ⟨.name, "x", .start⟩ :=
    .name rfl rfl fun k => by cases k <;> decide
  have mark (m : Mark) : m.token.Plain := Token.Spelled.plain rfl nofun
  simp only [sizedTokens, List.nil_append, List.cons_append, AllPlain.cons_iff]
  exact ⟨key, mark _, rank.plain nofun, mark _, mark _, axis, mark _, spelled.plain nofun, mark _,
    nofun⟩

/-- The number one with so many zeros in front of it that it is too long. -/
def longLiteral : String :=
  String.ofList (List.replicate greatestDigits '0' ++ ['1'])

theorem longLiteral_spelled : Token.Spelled ⟨.integer, longLiteral, .start⟩ := by
  refine ⟨List.replicate greatestDigits '0' ++ ['1'], Or.inl String.toList_ofList, by simp, ?_⟩
  simp only [List.mem_append, List.mem_replicate, List.mem_singleton]
  rintro c (⟨_, rfl⟩ | rfl) <;> rfl

theorem longLiteral_isOverlong : Token.isOverlong ⟨.integer, longLiteral, .start⟩ = true := by
  have digits : Token.digits ⟨.integer, longLiteral, .start⟩ = greatestDigits + 1 := by
    rw [Token.digits, longLiteral, String.toList_ofList, List.countP_append, List.countP_replicate,
      if_pos (show '0'.isDigit = true from rfl)]
    exact congrArg _ rfl
  rw [Token.isOverlong, digits]
  exact Bool.and_eq_true_iff.mpr ⟨rfl, decide_eq_true (Nat.lt_succ_self _)⟩

theorem find?_isOverlong_sizedTokens {literal : String}
    (overlong : Token.isOverlong ⟨.integer, literal, .start⟩ = true) :
    (sizedTokens literal).find? Token.isOverlong = some ⟨.integer, literal, .start⟩ := by
  have others {token : Token} (other : token.terminal ≠ .integer) : token.isOverlong = false := by
    simp [Token.isOverlong, other]
  simp [sizedTokens, others, overlong, Mark.token]

/-! ## The language -/

/-- The reader accepts the sentences of its grammar whose integers are short. What is read from a
text is what the tokens of the text stand for; and the words of a sentence of plain tokens are
read as what the sentence stands for, which is one program only, unless an integer is too long,
of which the first is then reported. -/
theorem readSource_sentences (source : String) (tokens : List Token)
    (program : List Declaration) :
    -- accepted texts are laid out from sentences
    (readSource source = .ok program →
      ∃ tokens, Reads (.between []) ⟨.start, source.toList⟩ tokens program ∧
        Laid (fun _ _ => True) tokens source.toList ∧ AllSpelled tokens ∧ AllShort tokens ∧
        Sentence tokens program) ∧
    (Sentence tokens program → AllPlain tokens →
      -- plain sentences are accepted
      (AllShort tokens →
        ∃ read, readSource (spaced tokens) = .ok read ∧
          read.map Declaration.anchored = program.map Declaration.anchored) ∧
      -- but for integers that are too long
      (∀ token, tokens.find? Token.isOverlong = some token →
        ∃ found, readSource (spaced tokens) = .error (.overlong found) ∧
          found.anchored = token.anchored) ∧
      -- and stand for one program
      ∀ other, Sentence tokens other → program = other) := by
  constructor
  · intro accepted
    rcases readSource_eq_ok_iff.mp accepted with ⟨tokens, reads, short⟩
    rcases reads.run with ⟨final, run, finished⟩
    exact ⟨tokens, reads, reads.laid, run.spelled, short, run.sentence finished⟩
  · intro sentence plain
    rcases sentence.run plain with ⟨final, run, finished⟩
    refine ⟨run.readSource_of_allShort finished (laid_spaced tokens), fun _ overlong =>
      run.readSource_of_overlong finished (laid_spaced tokens) overlong, ?_⟩
    intro other sentence'
    rcases sentence'.run plain with ⟨final', run', finished'⟩
    rw [run.unique run', finished'] at finished
    exact (Option.some.inj finished).symm

/-- The tokens of a block of offsets with a comma that may be left out. -/
def shapeTokens : List Token :=
  [Mark.openBrace.token] ++
    ([⟨.name, "x", .start⟩, Mark.plus.token, integerToken 1] ++ [Mark.comma.token] ++
      [⟨.name, "y", .start⟩, Mark.minus.token, integerToken 1]) ++ [Mark.closeBrace.token]

/-- The tokens of a test. -/
def testTokens (state : String) (comparison : Comparison) (bound : Int) : List Token :=
  [Keyword.neighborhood.token, Mark.openParen.token, ⟨.name, state, .start⟩,
    Mark.closeParen.token, comparison.token, integerToken bound]

/-- The tokens of a block with a rule whose condition is a conjunction. -/
def ruleTokens : List Token :=
  [Mark.openBrace.token] ++
    ([] ++ ([Keyword.fromWord.token, ⟨.name, "A", .start⟩, Keyword.toWord.token,
        ⟨.name, "B", .start⟩, Mark.assign.token] ++
      (testTokens "A" .atLeast 2 ++ [Mark.ampersand.token] ++
        ([Mark.bang.token] ++ testTokens "B" .below 3)))) ++ [Mark.closeBrace.token]

/-- The tokens of two declarations with blocks. -/
def blockTokens : List Token :=
  [] ++ ([Keyword.neighborhood.token, Mark.assign.token] ++ shapeTokens) ++
    ([⟨.name, "rules", .start⟩, Mark.assign.token] ++ ruleTokens)

theorem readSource_sentences_blocks : ∃ (program read : List Declaration),
    spaced blockTokens = "neighborhood := \x7b x + 1 , y - 1 \x7d " ++
      "rules := \x7b from A to B := neighborhood ( A ) >= 2 & ! neighborhood ( B ) < 3 \x7d" ∧
    Sentence blockTokens program ∧ AllPlain blockTokens ∧
    readSource (spaced blockTokens) = .ok read ∧
    read.map Declaration.anchored = program.map Declaration.anchored := by
  have offset {axis : String} {sign : Mark} (direction : Direction)
      (isDirection : .mark sign = direction.terminal) : OffsetPhrase
        [⟨.name, axis, .start⟩, sign.token, integerToken 1] ⟨_, direction, _⟩ :=
    .mk (.inl rfl) isDirection rfl
  have test (state : String) (comparison : Comparison) (bound : Int) :
      ConditionPhrase (testTokens state comparison bound) (.operand (.test ⟨comparison, _, _⟩)) :=
    .test rfl rfl rfl rfl rfl comparison.ofSymbol?_symbol rfl
  have shape : ValuePhrase shapeTokens _ :=
    .offsets rfl (.snoc (.single (offset .plus rfl)) (.present rfl) (offset .minus rfl)) rfl
  have condition : ConditionPhrase (testTokens "A" .atLeast 2 ++ [Mark.ampersand.token] ++
      ([Mark.bang.token] ++ testTokens "B" .below 3)) (.disjunction _) :=
    .alternative (.operands (.operand (test "A" .atLeast 2)) rfl
      (.negation rfl (test "B" .below 3)))
  have rules : ValuePhrase ruleTokens _ :=
    .rules rfl (.snoc .nil (.mk rfl rfl rfl rfl rfl condition)) rfl
  have sentence : Sentence blockTokens _ :=
    .snoc (.snoc .nil (.mk (.inr rfl) rfl shape)) (.mk (.inl rfl) rfl rules)
  have plain : AllPlain blockTokens := by
    have name (text : String) (known : text ∈ ["x", "y", "rules", "A", "B"]) :
        Token.Plain ⟨.name, text, .start⟩ := by
      simp only [List.mem_cons, List.not_mem_nil, or_false] at known
      rcases known with rfl | rfl | rfl | rfl | rfl <;>
        exact .name rfl rfl fun k => by cases k <;> decide
    have keyword (k : Keyword) : k.token.Plain := Token.Spelled.plain rfl nofun
    have mark (m : Mark) : m.token.Plain := Token.Spelled.plain rfl nofun
    have symbol (comparison : Comparison) : comparison.token.Plain :=
      Token.Spelled.plain ⟨comparison, rfl⟩ nofun
    have integer (n : Int) : (integerToken n).Plain := (integerToken_spelled n).plain nofun
    simp [AllPlain, blockTokens, shapeTokens, ruleTokens, testTokens, keyword, mark, symbol,
      integer, name]
  have short : AllShort blockTokens := by
    unfold AllShort
    decide
  rcases readSource_sentences "" blockTokens _ with ⟨_, decided⟩
  rcases (decided sentence plain).1 short with ⟨read, accepted, same⟩
  exact ⟨_, read, by decide, sentence, plain, accepted, same⟩

/-- A sentence whose integer has too many digits: the language of the reader is no longer that of
its grammar. -/
theorem readSource_ne_ok_sentence :
    Sentence (sizedTokens longLiteral)
        (sizedProgram (Token.toInt ⟨.integer, longLiteral, .start⟩)) ∧
      AllPlain (sizedTokens longLiteral) ∧
      ∀ read, readSource (spaced (sizedTokens longLiteral)) ≠ .ok read := by
  have sentence := sentence_sizedTokens longLiteral
  have plain := plain_sizedTokens longLiteral_spelled
  rcases sentence.run plain with ⟨final, run, finished⟩
  rcases run.readSource_of_overlong finished (laid_spaced _)
    (find?_isOverlong_sizedTokens longLiteral_isOverlong) with ⟨found, failed, _⟩
  refine ⟨sentence, plain, ?_⟩
  rw [failed]
  exact nofun

end Cellular
