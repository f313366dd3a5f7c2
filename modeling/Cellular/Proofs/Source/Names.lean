import Cellular.Proofs.Source.Partway
import Cellular.Proofs.Source.Positions
import Cellular.Proofs.Source.Sentences

/-!
# Names where they stand

Every name of a program that was read comes from a token, and the tokens of a text are found one
after the other, each at the place where its word begins. The grammar keeps the order: the names
of a program are some of the names of its tokens, in the same order. So every name is found in
the text at the place it remembers, and the names of a program come in the order of their places.
-/

namespace Cellular

/-! ## The names of a program -/

/-- The key of an attribute and its token, if it has them. -/
def Attribute.names : Attribute → List Name
  | defaultMark => []
  | keyed key token => [key, token]

/-- The name of a state and those of its attributes. -/
def StateEntry.names (entry : StateEntry) : List Name :=
  entry.name :: entry.attributes.flatMap Attribute.names

/-- The states that a condition compares, from left to right. -/
def Condition.names (c : Condition (CountTest Name)) : List Name :=
  c.tests.map CountTest.state

/-- The states of a rule and those of its condition. -/
def Rule.names (rule : Rule Name) : List Name :=
  rule.source :: rule.target :: rule.condition.names

/-- The axes whose sizes are declared. -/
def Environment.names (space : Environment) : List Name :=
  space.sizes.map Prod.fst

/-- The axes of the rules of a neighbourhood. -/
def Neighborhood.names : Neighborhood → List Name
  | moore | vonNeumann => []
  | custom rules => rules.map OffsetRule.axis

/-- The state of a boundary, if it names one. -/
def Boundary.names : Boundary (Option Name) → List Name
  | void | wrap => []
  | static state => state.toList

/-- The names of what is declared, in the order of the text. -/
def Value.names : Value → List Name
  | environment space => space.names
  | neighborhood shape => shape.names
  | boundary edge => edge.names
  | states block => block.flatMap StateEntry.names
  | rules block => block.flatMap Rule.names

/-- The names of a declaration in the order of the text. -/
def Declaration.names (declaration : Declaration) : List Name :=
  declaration.key :: declaration.value.names

/-- The names of a program in the order of the text. -/
def namesOf (program : List Declaration) : List Name :=
  program.flatMap Declaration.names

/-! ## Names are tokens -/

/-- Names of some of the tokens, in their order. -/
def TakenFrom (tokens : List Token) (names : List Name) : Prop :=
  names.Sublist (tokens.map Token.toName)

namespace TakenFrom

variable {before tokens : List Token} {earlier names : List Name}

theorem nil : TakenFrom tokens [] :=
  List.nil_sublist _

theorem append (first : TakenFrom before earlier) (last : TakenFrom tokens names) :
    TakenFrom (before ++ tokens) (earlier ++ names) := by
  rw [TakenFrom, List.map_append]
  exact List.Sublist.append first last

/-- Further tokens need not be named. -/
theorem around (taken : TakenFrom tokens names) (before after : List Token) :
    TakenFrom (before ++ tokens ++ after) names := by
  have none_before : TakenFrom before [] := nil
  have none_after : TakenFrom after [] := nil
  have whole := (none_before.append taken).append none_after
  rwa [List.nil_append, List.append_nil] at whole

theorem cons (taken : TakenFrom tokens names) (token : Token) :
    TakenFrom (token :: tokens) (token.toName :: names) :=
  List.Sublist.cons_cons _ taken

theorem skip (taken : TakenFrom tokens names) (token : Token) :
    TakenFrom (token :: tokens) names :=
  List.Sublist.cons _ taken

end TakenFrom

section Lists

variable {α : Type} {names : α → List Name}

theorem Repeated.takenFrom {phrase : List Token → α → Prop} {tokens : List Token}
    {items : List α} (repeated : Repeated phrase tokens items)
    (each : ∀ tokens item, phrase tokens item → TakenFrom tokens (names item)) :
    TakenFrom tokens (items.flatMap names) := by
  induction repeated with
  | nil => exact .nil
  | snoc _ last ih =>
      rw [List.flatMap_append, List.flatMap_singleton]
      exact ih.append (each _ _ last)

theorem Series.takenFrom {separator : List Token → Prop} {phrase : List Token → α → Prop}
    {tokens : List Token} {items : List α} (series : Series separator phrase tokens items)
    (each : ∀ tokens item, phrase tokens item → TakenFrom tokens (names item)) :
    TakenFrom tokens (items.flatMap names) := by
  induction series with
  | single phrase =>
      rw [List.flatMap_singleton]
      exact each _ _ phrase
  | snoc _ _ last ih =>
      rw [List.flatMap_append, List.flatMap_singleton]
      exact (ih.around [] _).append (each _ _ last)

end Lists

/-! ### Attributes and entries -/

theorem AttributePhrase.takenFrom {tokens : List Token} {mark : Attribute}
    (phrase : AttributePhrase tokens mark) : TakenFrom tokens mark.names := by
  cases phrase with
  | defaultMark _ => exact .nil
  | @keyed key opened token closed _ _ _ _ =>
      exact ((TakenFrom.nil.cons token).skip opened).cons key

theorem AttributesPhrase.takenFrom {tokens : List Token} {marks : List Attribute}
    (phrase : AttributesPhrase tokens marks) :
    TakenFrom tokens (marks.flatMap Attribute.names) := by
  cases phrase with
  | @grouped opened closed _ _ _ series _ =>
      exact (series.takenFrom fun _ _ => AttributePhrase.takenFrom).around [opened] [closed]
  | alone phrase =>
      rw [List.flatMap_singleton]
      exact phrase.takenFrom

theorem EntryPhrase.takenFrom {tokens : List Token} {entry : StateEntry}
    (phrase : EntryPhrase tokens entry) : TakenFrom tokens entry.names := by
  cases phrase with
  | @plain name _ => exact TakenFrom.nil.cons name
  | @marked name colons _ _ _ _ phrase => exact (phrase.takenFrom.skip colons).cons name

/-! ### Conditions -/

namespace Condition

theorem testsList_eq {α : Type} (cs : List (Condition α)) : testsList cs = cs.flatMap tests := by
  induction cs with
  | nil => rfl
  | cons c cs ih => rw [testsList, ih, List.flatMap_cons]

theorem tests_all {α : Type} (cs : List (Condition α)) : (all cs).tests = cs.flatMap tests := by
  rw [tests, testsList_eq]

theorem tests_any {α : Type} (cs : List (Condition α)) : (any cs).tests = cs.flatMap tests := by
  rw [tests, testsList_eq]

/-- What is gathered in a node holds the tests of its parts, even if it is no node. -/
theorem tests_gathered
    {node : List (Condition (CountTest Name)) → Condition (CountTest Name)}
    (flat : ∀ cs, (node cs).tests = cs.flatMap tests) (cs : List (Condition (CountTest Name))) :
    (gathered node cs).tests = cs.flatMap tests := by
  rcases cs with _ | ⟨c, _ | ⟨d, cs⟩⟩
  · exact flat []
  · exact (List.flatMap_singleton ..).symm
  · exact flat (c :: d :: cs)

theorem names_gathered
    {node : List (Condition (CountTest Name)) → Condition (CountTest Name)}
    (flat : ∀ cs, (node cs).tests = cs.flatMap tests) (cs : List (Condition (CountTest Name))) :
    (gathered node cs).names = cs.flatMap names := by
  rw [names, tests_gathered flat, List.map_flatMap]
  rfl

end Condition

/-- The names of a part of a condition. -/
def Reading.names : Reading → List Name
  | disjunction alternatives => alternatives.flatMap Condition.names
  | conjunction operands => operands.flatMap Condition.names
  | operand c => c.names

theorem ConditionPhrase.takenFrom {tokens : List Token} {reading : Reading}
    (phrase : ConditionPhrase tokens reading) : TakenFrom tokens reading.names := by
  induction phrase with
  | alternative _ ih =>
      rw [Reading.names, List.flatMap_singleton, Condition.names_gathered Condition.tests_all]
      exact ih
  | @alternatives _ _ bar _ _ _ _ _ first last =>
      rw [Reading.names, List.flatMap_append, List.flatMap_singleton,
        Condition.names_gathered Condition.tests_all]
      exact (TakenFrom.around first [] [bar]).append last
  | operand _ ih =>
      rw [Reading.names, List.flatMap_singleton]
      exact ih
  | @operands _ _ ampersand _ _ _ _ _ first last =>
      rw [Reading.names, List.flatMap_append, List.flatMap_singleton]
      exact (TakenFrom.around first [] [ampersand]).append last
  | @negation bang _ _ _ _ ih => exact TakenFrom.skip ih bang
  | @parentheses opened closed _ _ _ _ _ ih =>
      rw [Reading.names, Condition.names_gathered Condition.tests_any]
      exact TakenFrom.around ih [opened] [closed]
  | @test word opened state _ _ _ _ _ _ _ _ _ _ _ =>
      exact ((TakenFrom.nil.cons state).skip opened).skip word

theorem RulePhrase.takenFrom {tokens : List Token} {rule : Rule Name}
    (phrase : RulePhrase tokens rule) : TakenFrom tokens rule.names := by
  cases phrase with
  | @mk origin source into target assign _ alternatives _ _ _ _ _ condition =>
      have compared : (gathered .any alternatives).names = alternatives.flatMap Condition.names :=
        Condition.names_gathered Condition.tests_any alternatives
      rw [Rule.names, compared]
      exact ((((condition.takenFrom.skip assign).cons target).skip into).cons source).skip origin

/-! ### Programs -/

theorem SizePhrase.takenFrom {tokens : List Token} {size : Name × Int}
    (phrase : SizePhrase tokens size) : TakenFrom tokens [size.1] := by
  cases phrase with
  | @mk axis _ _ _ _ _ => exact TakenFrom.nil.cons axis

theorem OffsetPhrase.takenFrom {tokens : List Token} {rule : OffsetRule}
    (phrase : OffsetPhrase tokens rule) : TakenFrom tokens [rule.axis] := by
  cases phrase with
  | @mk axis _ _ _ _ _ _ => exact TakenFrom.nil.cons axis

theorem ValuePhrase.takenFrom {tokens : List Token} {value : Value}
    (phrase : ValuePhrase tokens value) : TakenFrom tokens value.names := by
  cases phrase with
  | environment _ | moore _ | vonNeumann _ | void _ | wrap _ | static _ => exact .nil
  | @sizes rank colons opened closed _ sizes _ _ _ series _ =>
      have axes := series.takenFrom fun _ _ => SizePhrase.takenFrom
      rw [← List.map_eq_flatMap] at axes
      exact axes.around [rank, colons, opened] [closed]
  | @offsets opened closed _ rules _ series _ =>
      have axes := series.takenFrom fun _ _ => OffsetPhrase.takenFrom
      rw [← List.map_eq_flatMap] at axes
      exact axes.around [opened] [closed]
  | @staticState word colons opened state _ _ _ _ _ _ =>
      exact (((TakenFrom.nil.cons state).skip opened).skip colons).skip word
  | @states opened closed _ _ _ series _ =>
      exact (series.takenFrom fun _ _ => EntryPhrase.takenFrom).around [opened] [closed]
  | @rules opened closed _ _ _ repeated _ =>
      exact (repeated.takenFrom fun _ _ => RulePhrase.takenFrom).around [opened] [closed]

theorem DeclarationPhrase.takenFrom {tokens : List Token} {declaration : Declaration}
    (phrase : DeclarationPhrase tokens declaration) : TakenFrom tokens declaration.names := by
  cases phrase with
  | @mk key assign _ _ _ _ value => exact (value.takenFrom.skip assign).cons key

/-- The names of a program are names of its tokens, in their order. -/
theorem Sentence.takenFrom {tokens : List Token} {program : List Declaration}
    (sentence : Sentence tokens program) : TakenFrom tokens (namesOf program) :=
  Repeated.takenFrom sentence fun _ _ => DeclarationPhrase.takenFrom

/-! ## Tokens where they stand -/

theorem Terminal.Spells.oneLine {terminal : Terminal} {chars : List Char}
    (spelled : terminal.Spells chars) : '\n' ∉ chars := by
  cases terminal with
  | dimensionality =>
      rcases spelled with ⟨digit, rfl | rfl | rfl, rfl⟩ <;> decide
  | name => exact spelled.notMem_of_name (by decide) (by decide)
  | integer => exact spelled.notMem_of_integer (by decide) (by decide)
  | comparison =>
      rcases spelled with ⟨comparison, rfl⟩
      cases comparison <;> decide
  | keyword k =>
      obtain rfl := spelled
      cases k <;> decide
  | mark m =>
      obtain rfl := spelled
      cases m <;> decide

namespace Reads

variable {place : Place} {cursor : Cursor} {tokens : List Token} {program : List Declaration}

/-- A token stands at the place where the text before it leads. -/
theorem exists_stands (reads : Reads place cursor tokens program) {token : Token}
    (member : token ∈ tokens) :
    ∃ before after, cursor.rest = before ++ token.text.toList ++ after ∧
      token.place = cursor.place.advance before := by
  rcases reads.exists_of_mem member with
    ⟨_, _, middle, here, word, _, _, reaches, found, rfl, _, _⟩
  rcases reaches.exists_before (ne_nil_of_nextWord found) with ⟨before, _, whole, moved, _, _⟩
  refine ⟨before, word.rest, ?_, moved⟩
  rw [Word.token, String.toList_ofList, List.append_assoc, nextWord_append found]
  exact whole

/-- Tokens are found one after the other. -/
theorem increasing (reads : Reads place cursor tokens program) :
    tokens.Pairwise fun token later => token.place.Before later.place := by
  induction reads with
  | done => exact .nil
  | @word place next cursor word tokens program found _ rest ih =>
      refine .cons ?_ ih
      intro later member
      rcases rest.exists_stands member with ⟨between, _, _, moved⟩
      rw [moved, Word.after, ← Position.advance_append]
      exact Position.before_advance _
        (List.append_ne_nil_of_left_ne_nil (chars_ne_nil_of_nextWord found) _)

end Reads

/-! ## Names where they stand -/

/-- A name that remembers a place from where on the text reads it. -/
def Name.StandsIn (source : String) (name : Name) : Prop :=
  ∃ place, name.place = some place ∧ place.Shows source.toList name.text.toList

theorem Reads.standsIn {source : String} {place : Place} {tokens : List Token}
    {program : List Declaration} (reads : Reads place ⟨.start, source.toList⟩ tokens program)
    {token : Token} (member : token ∈ tokens) (spelled : token.Spelled) :
    token.toName.StandsIn source := by
  rcases reads.exists_stands member with ⟨before, after, whole, here⟩
  have shown := Position.shows_advance before after spelled.oneLine
  rw [← whole, ← here] at shown
  exact ⟨token.place, rfl, shown⟩

/-- The names of a program that was read stand in its text, one after the other. -/
theorem exists_standing {source : String} {program : List Declaration}
    (read : readProgram source = .ok program) :
    (∀ name ∈ namesOf program, name.StandsIn source) ∧
      ∃ places : List Position, (namesOf program).map Name.place = places.map some ∧
        places.Pairwise Position.Before := by
  rcases readFrom_eq_ok_iff.mp read with ⟨tokens, reads⟩
  rcases reads.run with ⟨final, run, finished⟩
  rcases List.sublist_map_iff.mp (run.sentence finished).takenFrom with ⟨own, chosen, names⟩
  rw [names]
  constructor
  · intro name member
    rcases List.mem_map.mp member with ⟨token, isOwn, rfl⟩
    have isToken := chosen.subset isOwn
    exact reads.standsIn isToken (run.spelled token isToken)
  · refine ⟨own.map Token.place, ?_, ?_⟩
    · rw [List.map_map, List.map_map]
      rfl
    · rw [List.pairwise_map]
      exact reads.increasing.sublist chosen

end Cellular
