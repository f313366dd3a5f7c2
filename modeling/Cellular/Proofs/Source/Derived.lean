import Cellular.Proofs.Source.Explained
import Mathlib.Data.List.Basic

/-!
# Every sentence is accepted

A run follows the phrases of a sentence. Where a phrase begins, its tokens lead to the place
at which its part is finished, whatever was read before. A place that also looks for
keywords would take a name that is spelled like one for the keyword; sentences are clear if
that never happens.
-/

namespace Cellular

/-! ## Single tokens -/

/-- A name that no keyword is spelled like that the place looks for. -/
def Place.Distinguishes (place : Place) (text : String) : Prop :=
  ∀ k : Keyword, .keyword k ∈ place.wanted → k.text ≠ text

namespace Run

variable {place next : Place} {token : Token}

theorem name (spelled : token.Spelled) (clear : place.Distinguishes token.text)
    (stepped : place.step token = some next) : Run place [token] next :=
  .token ⟨Place.wanted_of_step stepped, spelled, fun _ => clear⟩ stepped .done

theorem word (spelled : token.Spelled) {terminal : Terminal} (isWord : token.terminal = terminal)
    (other : terminal ≠ .name) (stepped : place.step token = some next) :
    Run place [token] next := by
  refine .token ⟨Place.wanted_of_step stepped, spelled, ?_⟩ stepped .done
  intro isName
  exact absurd (isWord.symm.trans isName) other

end Run

/-- All tokens of a list are spelled as their terminals ask for. -/
def AllSpelled (tokens : List Token) : Prop :=
  ∀ token ∈ tokens, token.Spelled

theorem AllSpelled.cons_iff {token : Token} {tokens : List Token} :
    AllSpelled (token :: tokens) ↔ token.Spelled ∧ AllSpelled tokens :=
  List.forall_mem_cons

theorem AllSpelled.append_iff {before tokens : List Token} :
    AllSpelled (before ++ tokens) ↔ AllSpelled before ∧ AllSpelled tokens :=
  List.forall_mem_append

/-! ## Sizes -/

private theorem run_size {opening : Opening} {r : Nat} {sizes : List (Name × Int)}
    {tokens : List Token} {item : Name × Int} (phrase : SizePhrase tokens item)
    (spelled : AllSpelled tokens) :
    Run (.size opening r sizes) tokens (.sizeEnd opening r (item :: sizes)) := by
  cases phrase with
  | @mk axis equal size isAxis isEqual isInteger =>
      simp only [AllSpelled.cons_iff] at spelled
      rcases spelled with ⟨first, second, third, _⟩
      have begun : Run (.size opening r sizes) [axis] (.sizeAxis opening r sizes axis.toName) := by
        rcases isAxis with isName | isStar
        · exact .name first (by simp [Place.Distinguishes, Place.wanted])
            (by simp only [Place.step, isName])
        · exact .word first isStar (by simp) (by simp only [Place.step, isStar])
      have middle : Run (.sizeAxis opening r sizes axis.toName) [equal]
          (.sizeEqual opening r sizes axis.toName) :=
        .word second isEqual (by simp) (by simp only [Place.step, isEqual])
      have last : Run (.sizeEqual opening r sizes axis.toName) [size]
          (.sizeEnd opening r ((axis.toName, size.toInt) :: sizes)) :=
        .word third isInteger (by simp) (by simp only [Place.step, isInteger])
      exact begun.append (middle.append last)

private theorem run_sizes {opening : Opening} {r : Nat} {tokens : List Token}
    {sizes : List (Name × Int)} (series : Series Comma SizePhrase tokens sizes)
    (spelled : AllSpelled tokens) :
    Run (.size opening r []) tokens (.sizeEnd opening r sizes.reverse) := by
  induction series with
  | single phrase => exact run_size phrase spelled
  | @snoc before between tokens items item _ separator phrase ih =>
      simp only [AllSpelled.append_iff] at spelled
      rcases spelled with ⟨⟨first, second⟩, third⟩
      cases separator with
      | @mk comma isComma =>
          have further : Run (.sizeEnd opening r items.reverse) [comma]
              (.size opening r items.reverse) :=
            .word (second comma List.mem_cons_self) isComma (by simp)
              (by simp only [Place.step, isComma])
          rw [List.reverse_concat, List.append_assoc]
          exact (ih first).append (further.append (run_size phrase third))

/-! ## Offsets -/

private theorem run_direction {opening : Opening} {rules : List OffsetRule} {axis : Name}
    {place : Place} {word magnitude : Token} {direction : Direction}
    (isWord : word.terminal = direction.terminal) (isInteger : magnitude.terminal = .integer)
    (steps : place.step word = Place.directed opening rules axis word)
    (spelled : AllSpelled [word, magnitude]) :
    Run place [word, magnitude]
      (.offsetEnd opening (⟨axis, direction, magnitude.toInt⟩ :: rules)) := by
  simp only [AllSpelled.cons_iff] at spelled
  rcases spelled with ⟨first, second, _⟩
  have begun : Run place [word] (.offsetDirection opening rules axis direction) := by
    apply Run.word first isWord
    · cases direction <;> simp [Direction.terminal]
    · rw [steps]
      cases direction <;> simp only [Direction.terminal] at isWord <;>
        simp only [Place.directed, isWord]
  have last : Run (.offsetDirection opening rules axis direction) [magnitude]
      (.offsetEnd opening (⟨axis, direction, magnitude.toInt⟩ :: rules)) :=
    .word second isInteger (by simp) (by simp only [Place.step, isInteger])
  exact begun.append last

/-- The first rule of a block of offsets. Its axis is not taken for the word that begins a
rule that changes states. -/
private theorem run_firstOffset {opening : Opening} {tokens : List Token} {rule : OffsetRule}
    (phrase : OffsetPhrase tokens rule) (spelled : AllSpelled tokens)
    (clear : rule.axis.text ≠ Keyword.fromWord.text) :
    Run (.block opening) tokens (.offsetEnd opening [rule]) := by
  cases phrase with
  | @mk axis word magnitude direction isAxis isWord isInteger =>
      rcases AllSpelled.cons_iff.mp spelled with ⟨first, others⟩
      rcases isAxis with isName | isStar
      · have begun : Run (.block opening) [axis] (.firstName opening axis.toName) := by
          apply Run.name first
          · intro k sought same
            simp only [Place.wanted, List.mem_cons, reduceCtorEq, Terminal.keyword.injEq,
              false_or, List.not_mem_nil, or_false] at sought
            subst sought
            exact clear same.symm
          · simp only [Place.step, isName]
        have steps : (Place.firstName opening axis.toName).step word =
            Place.directed opening [] axis.toName word := by
          cases direction <;> simp only [Direction.terminal] at isWord <;>
            simp only [Place.step, isWord]
        exact begun.append (run_direction isWord isInteger steps others)
      · have begun : Run (.block opening) [axis] (.offsetAxis opening [] axis.toName) :=
          .word first isStar (by simp) (by simp only [Place.step, isStar])
        exact begun.append (run_direction isWord isInteger rfl others)

private theorem run_nextOffset {opening : Opening} {rules : List OffsetRule} {place : Place}
    {tokens : List Token} {rule : OffsetRule} (phrase : OffsetPhrase tokens rule)
    (spelled : AllSpelled tokens) (free : ∀ text, place.Distinguishes text)
    (steps : ∀ token : Token, token.IsAxis →
      place.step token = some (.offsetAxis opening rules token.toName)) :
    Run place tokens (.offsetEnd opening (rule :: rules)) := by
  cases phrase with
  | @mk axis word magnitude direction isAxis isWord isInteger =>
      rcases AllSpelled.cons_iff.mp spelled with ⟨first, others⟩
      have begun : Run place [axis] (.offsetAxis opening rules axis.toName) :=
        .name first (free axis.text) (steps axis isAxis)
      exact begun.append (run_direction isWord isInteger rfl others)

private theorem run_offsets {opening : Opening} {tokens : List Token} {rules : List OffsetRule}
    (series : Series OptionalComma OffsetPhrase tokens rules) (spelled : AllSpelled tokens)
    (clear : ∀ rule ∈ rules.head?, rule.axis.text ≠ Keyword.fromWord.text) :
    Run (.block opening) tokens (.offsetEnd opening rules.reverse) := by
  induction series with
  | single phrase => exact run_firstOffset phrase spelled (clear _ rfl)
  | @snoc before between tokens items item series separator phrase ih =>
      simp only [AllSpelled.append_iff] at spelled
      rcases spelled with ⟨⟨first, second⟩, third⟩
      rw [List.head?_append_of_ne_nil _ series.ne_nil] at clear
      rw [List.reverse_concat, List.append_assoc]
      apply (ih first clear).append
      cases separator with
      | absent =>
          apply run_nextOffset phrase third
          · simp [Place.Distinguishes, Place.wanted]
          · rintro token (isName | isStar)
            · simp only [Place.step, isName]
            · simp only [Place.step, isStar]
      | @present comma isComma =>
          have further : Run (.offsetEnd opening items.reverse) [comma]
              (.offset opening items.reverse) :=
            .word (second comma List.mem_cons_self) isComma (by simp)
              (by simp only [Place.step, isComma])
          apply further.append
          apply run_nextOffset phrase third
          · simp [Place.Distinguishes, Place.wanted]
          · rintro token (isName | isStar)
            · simp only [Place.step, isName]
            · simp only [Place.step, isStar]

/-! ## Attributes -/

/-- An attribute that is not taken for the mark of the default state. -/
def Attribute.Clear : Attribute → Prop
  | .defaultMark => True
  | .keyed key _ => key.text ≠ Keyword.defaultWord.text

/-- The place before an attribute. -/
def attributePlace (entry : OpenState) : AttributeList → Place
  | .alone => .stateColons entry
  | .grouped finished => .attributeStart entry finished

private theorem step_attributePlace {entry : OpenState} {list : AttributeList} {token : Token}
    (fits : token.terminal = .name ∨ token.terminal = .keyword .defaultWord) :
    (attributePlace entry list).step token = Place.marked entry list token := by
  cases list with
  | grouped finished => rfl
  | alone =>
      rcases fits with isName | isDefault
      · simp only [attributePlace, Place.step, isName]
      · simp only [attributePlace, Place.step, isDefault]

private theorem attributePlace_distinguishes {entry : OpenState} {list : AttributeList}
    {text : String} (clear : text ≠ Keyword.defaultWord.text) :
    (attributePlace entry list).Distinguishes text := by
  intro k sought
  have isDefault : k = .defaultWord := by
    cases list <;> simpa [attributePlace, Place.wanted] using sought
  rw [isDefault]
  exact clear.symm

private theorem run_attribute (entry : OpenState) (list : AttributeList) {tokens : List Token}
    {mark : Attribute} (phrase : AttributePhrase tokens mark) (spelled : AllSpelled tokens)
    (clear : mark.Clear) :
    Run (attributePlace entry list) tokens (.attributeEnd entry list mark) := by
  cases phrase with
  | @defaultMark word isDefault =>
      apply Run.word (spelled word List.mem_cons_self) isDefault (by simp)
      rw [step_attributePlace (Or.inr isDefault)]
      simp only [Place.marked, isDefault]
  | @keyed key opened token closed isName opens isToken closes =>
      simp only [AllSpelled.cons_iff] at spelled
      rcases spelled with ⟨first, second, third, fourth, _⟩
      have begun : Run (attributePlace entry list) [key] (.attributeKey entry list key.toName) := by
        apply Run.name first (attributePlace_distinguishes clear)
        rw [step_attributePlace (Or.inl isName)]
        simp only [Place.marked, isName]
      have enters : Run (.attributeKey entry list key.toName) [opened]
          (.attributeOpen entry list key.toName) :=
        .word second opens (by simp) (by simp only [Place.step, opens])
      have inside : Run (.attributeOpen entry list key.toName) [token]
          (.attributeToken entry list key.toName token.toName) :=
        .name third (by simp [Place.Distinguishes, Place.wanted])
          (by simp only [Place.step, isToken])
      have leaves : Run (.attributeToken entry list key.toName token.toName) [closed]
          (.attributeEnd entry list (.keyed key.toName token.toName)) :=
        .word fourth closes (by simp) (by simp only [Place.step, closes])
      exact begun.append (enters.append (inside.append leaves))

private theorem run_attributes {entry : OpenState} {tokens : List Token} {marks : List Attribute}
    (series : Series Comma AttributePhrase tokens marks) (spelled : AllSpelled tokens)
    (clear : ∀ mark ∈ marks, mark.Clear) :
    ∃ last finished, marks.reverse = last :: finished ∧
      Run (.attributeStart entry []) tokens (.attributeEnd entry (.grouped finished) last) := by
  induction series with
  | single phrase =>
      exact ⟨_, [], rfl,
        run_attribute entry (.grouped []) phrase spelled (clear _ List.mem_cons_self)⟩
  | @snoc before between tokens items item series separator phrase ih =>
      simp only [AllSpelled.append_iff] at spelled
      rcases spelled with ⟨⟨first, second⟩, third⟩
      rcases List.forall_mem_append.mp clear with ⟨others, own⟩
      rcases ih first others with ⟨last, finished, reversed, run⟩
      refine ⟨item, last :: finished, by rw [List.reverse_concat, reversed], ?_⟩
      cases separator with
      | @mk comma isComma =>
          have further : Run (.attributeEnd entry (.grouped finished) last) [comma]
              (.attributeStart entry (last :: finished)) :=
            .word (second comma List.mem_cons_self) isComma (by simp)
              (by simp only [Place.step, isComma])
          have next : Run (.attributeStart entry (last :: finished)) tokens
              (.attributeEnd entry (.grouped (last :: finished)) item) :=
            run_attribute entry (.grouped (last :: finished)) phrase third
              (own item List.mem_cons_self)
          rw [List.append_assoc]
          exact run.append (further.append next)

/-! ## States -/

/-- A place at which the states of a block may end or go on. -/
structure Place.EndsEntry (opening : Opening) (entries : List StateEntry) (place : Place) :
    Prop where
  step : ∀ token : Token, token.terminal = .name ∨ token.terminal = .mark .closeBrace →
    place.step token = nextEntry opening entries token
  wanted : ∀ k : Keyword, .keyword k ∈ place.wanted →
    k = .within ∧ ∃ name, entries = [⟨name, []⟩]

/-- States that are not taken for rules of either kind. -/
structure EntriesClear (entries : List StateEntry) : Prop where
  attributes : ∀ entry ∈ entries, ∀ mark ∈ entry.attributes, mark.Clear
  first : ∀ entry ∈ entries.head?, entry.name.text ≠ Keyword.fromWord.text
  second : ∀ entry next rest, entries = entry :: next :: rest → entry.attributes = [] →
    next.name.text ≠ Keyword.within.text

theorem EntriesClear.init {entries : List StateEntry} {last : StateEntry}
    (clear : EntriesClear (entries ++ [last])) (nonempty : entries ≠ []) :
    EntriesClear entries where
  attributes entry member := clear.attributes entry (List.mem_append_left [last] member)
  first := by
    have first := clear.first
    rwa [List.head?_append_of_ne_nil _ nonempty] at first
  second := by
    rintro entry next rest rfl
    exact clear.second entry next (rest ++ [last]) rfl

/-- The place after the name of a state. -/
def namePlace (opening : Opening) (name : Name) : List StateEntry → Place
  | [] => .firstName opening name
  | earlier => .state ⟨opening, earlier, name⟩

private theorem namePlace_of_ne_nil {opening : Opening} {name : Name}
    {earlier : List StateEntry} (nonempty : earlier ≠ []) :
    namePlace opening name earlier = .state ⟨opening, earlier, name⟩ := by
  cases earlier with
  | nil => exact absurd rfl nonempty
  | cons entry earlier => rfl

private theorem namePlace_colons {opening : Opening} {name : Name} {earlier : List StateEntry}
    {colons : Token} (isColons : colons.terminal = .mark .colons) :
    (namePlace opening name earlier).step colons =
      some (.stateColons ⟨opening, earlier, name⟩) := by
  cases earlier <;> simp only [namePlace, Place.step, isColons]

private theorem namePlace_ends (opening : Opening) (name : Name) (earlier : List StateEntry) :
    (namePlace opening name earlier).EndsEntry opening (⟨name, []⟩ :: earlier) := by
  cases earlier with
  | nil =>
      constructor
      · rintro token (isName | closes)
        · simp only [namePlace, Place.step, isName]
        · simp only [namePlace, Place.step, closes]
      · intro k sought
        refine ⟨?_, name, rfl⟩
        simpa [namePlace, Place.wanted, Place.directions] using sought
  | cons entry earlier =>
      constructor
      · rintro token (isName | closes)
        · simp only [namePlace, Place.step, isName]
          rfl
        · simp only [namePlace, Place.step, closes]
          rfl
      · intro k sought
        exact absurd sought (by simp [namePlace, Place.wanted])

private theorem run_marked {opening : Opening} {name : Name} {earlier : List StateEntry}
    {tokens : List Token} {marks : List Attribute} (phrase : AttributesPhrase tokens marks)
    (spelled : AllSpelled tokens) (clear : ∀ mark ∈ marks, mark.Clear) :
    ∃ next, Run (.stateColons ⟨opening, earlier, name⟩) tokens next ∧
      next.EndsEntry opening (⟨name, marks⟩ :: earlier) := by
  cases phrase with
  | @alone _ mark phrase =>
      have run : Run (.stateColons ⟨opening, earlier, name⟩) tokens
          (.attributeEnd ⟨opening, earlier, name⟩ .alone mark) :=
        run_attribute _ .alone phrase spelled (clear mark List.mem_cons_self)
      refine ⟨_, run, fun token _ => rfl, ?_⟩
      intro k sought
      exact absurd sought (by simp [Place.wanted])
  | @grouped opened closed tokens _ opens series closes =>
      simp only [AllSpelled.append_iff] at spelled
      rcases spelled with ⟨⟨first, second⟩, third⟩
      rcases run_attributes series second clear with ⟨last, finished, reversed, run⟩
      have enters : Run (.stateColons ⟨opening, earlier, name⟩) [opened]
          (.attributeStart ⟨opening, earlier, name⟩ []) :=
        .word (first opened List.mem_cons_self) opens (by simp) (by simp only [Place.step, opens])
      have leaves : Run (.attributeEnd ⟨opening, earlier, name⟩ (.grouped finished) last) [closed]
          (.stateEnd opening (⟨name, marks⟩ :: earlier)) := by
        apply Run.word (third closed List.mem_cons_self) closes (by simp)
        simp only [Place.step, closes, Place.entered, ← reversed, List.reverse_reverse]
      rw [List.append_assoc]
      refine ⟨_, enters.append (run.append leaves), fun token _ => rfl, ?_⟩
      intro k sought
      exact absurd sought (by simp [Place.wanted])

private theorem run_entry {opening : Opening} {earlier : List StateEntry} {place : Place}
    {tokens : List Token} {entry : StateEntry} (phrase : EntryPhrase tokens entry)
    (spelled : AllSpelled tokens) (clear : ∀ mark ∈ entry.attributes, mark.Clear)
    (distinguishes : place.Distinguishes entry.name.text)
    (steps : ∀ token : Token, token.terminal = .name →
      place.step token = some (namePlace opening token.toName earlier)) :
    ∃ next, Run place tokens next ∧ next.EndsEntry opening (entry :: earlier) := by
  cases phrase with
  | @plain name isName =>
      have run : Run place [name] (namePlace opening name.toName earlier) :=
        .name (spelled name List.mem_cons_self) distinguishes (steps name isName)
      exact ⟨_, run, namePlace_ends opening name.toName earlier⟩
  | @marked name colons tokens marks isName isColons phrase =>
      simp only [AllSpelled.append_iff, AllSpelled.cons_iff] at spelled
      rcases spelled with ⟨⟨first, second, _⟩, third⟩
      have run : Run place [name] (namePlace opening name.toName earlier) :=
        .name first distinguishes (steps name isName)
      have further : Run (namePlace opening name.toName earlier) [colons]
          (.stateColons ⟨opening, earlier, name.toName⟩) :=
        .word second isColons (by simp) (namePlace_colons isColons)
      rcases run_marked phrase third clear with ⟨next, rest, ends⟩
      exact ⟨next, (run.append further).append rest, ends⟩

private theorem run_entries {opening : Opening} {tokens : List Token} {entries : List StateEntry}
    (series : Series NoSeparator EntryPhrase tokens entries) (spelled : AllSpelled tokens)
    (clear : EntriesClear entries) :
    ∃ next, Run (.block opening) tokens next ∧ next.EndsEntry opening entries.reverse := by
  induction series with
  | @single tokens entry phrase =>
      apply run_entry phrase spelled (clear.attributes entry List.mem_cons_self)
      · intro k sought same
        have isFrom : k = .fromWord := by simpa [Place.wanted] using sought
        rw [isFrom] at same
        exact clear.first entry rfl same.symm
      · intro token isName
        simp only [Place.step, isName]
        rfl
  | @snoc before between tokens items item series separator phrase ih =>
      simp only [AllSpelled.append_iff] at spelled
      rcases spelled with ⟨⟨first, _⟩, third⟩
      rcases ih first (clear.init series.ne_nil) with ⟨place, run, ends⟩
      cases separator
      rw [List.append_nil, List.reverse_concat]
      have last : ∃ next, Run place tokens next ∧
          next.EndsEntry opening (item :: items.reverse) := by
        apply run_entry phrase third (clear.attributes item (by simp))
        · intro k sought same
          rcases ends.wanted k sought with ⟨rfl, name, single⟩
          rw [List.reverse_eq_iff] at single
          subst single
          exact clear.second ⟨name, []⟩ item [] rfl rfl same.symm
        · intro token isName
          rw [ends.step token (Or.inl isName),
            namePlace_of_ne_nil (List.reverse_ne_nil_iff.mpr series.ne_nil)]
          simp only [Place.nextEntry, isName]
      rcases last with ⟨next, further, ends⟩
      exact ⟨next, run.append further, ends⟩

/-! ## Conditions -/

theorem negated_not (n : Nat) (c : Condition (CountTest Name)) :
    negated n (.not c) = .not (negated n c) := by
  induction n with
  | zero => rfl
  | succ n ih => rw [negated, ih, negated]

namespace Level

theorem operand_negate (level : Level) (c : Condition (CountTest Name)) :
    level.negate.operand c = level.operand (.not c) := by
  rw [operand, operand, negated_not]
  rfl

/-- The operands of a conjunction are added to those that a level has. -/
def conjoin (level : Level) (operands : List (Condition (CountTest Name))) : Level :=
  { level with conjuncts := operands.reverse ++ level.conjuncts }

theorem operand_of_negations {level : Level} (none_negated : level.negations = 0)
    (c : Condition (CountTest Name)) : level.operand c = level.conjoin [c] := by
  rcases level with ⟨alternatives, conjuncts, negations⟩
  obtain rfl : negations = 0 := none_negated
  rfl

theorem operand_conjoin {level : Level} (none_negated : level.negations = 0)
    (operands : List (Condition (CountTest Name))) (c : Condition (CountTest Name)) :
    (level.conjoin operands).operand c = level.conjoin (operands ++ [c]) := by
  rcases level with ⟨alternatives, conjuncts, negations⟩
  obtain rfl : negations = 0 := none_negated
  simp [operand, conjoin, negated]

/-- What a level holds is a whole disjunction, whose last conjunction is not closed. -/
structure Holds (level : Level) (alternatives : List (Condition (CountTest Name))) : Prop where
  negations : level.negations = 0
  alternatives : (joined .all level.conjuncts :: level.alternatives) = alternatives.reverse

theorem Holds.close {level : Level} {alternatives : List (Condition (CountTest Name))}
    (holds : level.Holds alternatives) : level.close = gathered .any alternatives := by
  rw [Level.close, holds.alternatives, joined_eq_gathered, List.reverse_reverse]

end Level

/-- The place to which the tokens of a part of a condition lead. -/
def Leads (rule : OpenRule) (tokens : List Token) : Reading → Prop
  | .operand c => Run (.operand rule) tokens
      (.operandEnd { rule with level := rule.level.operand c })
  | .conjunction operands => rule.level.negations = 0 → Run (.operand rule) tokens
      (.operandEnd { rule with level := rule.level.conjoin operands })
  | .disjunction alternatives => rule.level = {} → ∃ level, level.Holds alternatives ∧
      Run (.operand rule) tokens (.operandEnd { rule with level := level })

private theorem run_test {rule : OpenRule} {word opened state closed symbol bound : Token}
    {comparison : Comparison} (isWord : word.terminal = .keyword .neighborhood)
    (opens : opened.terminal = .mark .openParen) (isName : state.terminal = .name)
    (closes : closed.terminal = .mark .closeParen) (isSymbol : symbol.terminal = .comparison)
    (known : Comparison.ofSymbol? symbol.text = some comparison)
    (isInteger : bound.terminal = .integer)
    (spelled : AllSpelled [word, opened, state, closed, symbol, bound]) :
    Run (.operand rule) [word, opened, state, closed, symbol, bound]
      (.operandEnd { rule with
        level := rule.level.operand (.test ⟨comparison, state.toName, bound.toInt⟩) }) := by
  simp only [AllSpelled.cons_iff] at spelled
  rcases spelled with ⟨first, second, third, fourth, fifth, sixth, _⟩
  have begun : Run (.operand rule) [word] (.test rule) :=
    .word first isWord (by simp) (by simp only [Place.step, isWord])
  have enters : Run (.test rule) [opened] (.testOpen rule) :=
    .word second opens (by simp) (by simp only [Place.step, opens])
  have inside : Run (.testOpen rule) [state] (.testState rule state.toName) :=
    .name third (by simp [Place.Distinguishes, Place.wanted]) (by simp only [Place.step, isName])
  have leaves : Run (.testState rule state.toName) [closed] (.testComparison rule state.toName) :=
    .word fourth closes (by simp) (by simp only [Place.step, closes])
  have compares : Run (.testComparison rule state.toName) [symbol]
      (.testBound rule state.toName comparison) := by
    apply Run.word fifth isSymbol (by simp)
    simp only [Place.step, isSymbol, known, Option.map_some]
  have last : Run (.testBound rule state.toName comparison) [bound]
      (.operandEnd { rule with
        level := rule.level.operand (.test ⟨comparison, state.toName, bound.toInt⟩) }) :=
    .word sixth isInteger (by simp) (by simp only [Place.step, isInteger])
  exact begun.append (enters.append (inside.append (leaves.append (compares.append last))))

/-- The tokens of a part of a condition lead on, in whatever it stands. -/
theorem ConditionPhrase.leads {tokens : List Token} {reading : Reading}
    (phrase : ConditionPhrase tokens reading) (spelled : AllSpelled tokens) (rule : OpenRule) :
    Leads rule tokens reading := by
  induction phrase generalizing rule with
  | @alternative tokens operands _ ih =>
      intro fresh
      have run := ih spelled rule (by rw [fresh])
      refine ⟨_, ⟨?_, ?_⟩, run⟩
      · rw [fresh]
        rfl
      · rw [fresh]
        simp [Level.conjoin, joined_eq_gathered]
  | @alternatives before tokens bar earlier operands _ isBar _ ih ih' =>
      simp only [AllSpelled.append_iff] at spelled
      rcases spelled with ⟨⟨first, second⟩, third⟩
      intro fresh
      rcases ih first rule fresh with ⟨level, holds, run⟩
      have further : Run (.operandEnd { rule with level := level }) [bar]
          (.operand { rule with level := level.alternative }) := by
        apply Run.word (second bar List.mem_cons_self) isBar (by simp)
        simp only [Place.step, Place.continued, isBar]
      have rest := ih' third { rule with level := level.alternative } holds.negations
      refine ⟨level.alternative.conjoin operands, ⟨holds.negations, ?_⟩,
        (run.append further).append rest⟩
      rw [List.reverse_concat, ← holds.alternatives]
      simp [Level.conjoin, Level.alternative, joined_eq_gathered]
  | @operand tokens c _ ih =>
      intro none_negated
      have run := ih spelled rule
      rw [Leads, Level.operand_of_negations none_negated] at run
      exact run
  | @operands before tokens ampersand earlier c _ isAmpersand _ ih ih' =>
      simp only [AllSpelled.append_iff] at spelled
      rcases spelled with ⟨⟨first, second⟩, third⟩
      intro none_negated
      have run := ih first rule none_negated
      have further : Run (.operandEnd { rule with level := rule.level.conjoin earlier }) [ampersand]
          (.operand { rule with level := rule.level.conjoin earlier }) := by
        apply Run.word (second ampersand List.mem_cons_self) isAmpersand (by simp)
        simp only [Place.step, Place.continued, isAmpersand]
      have rest := ih' third { rule with level := rule.level.conjoin earlier }
      rw [Leads, Level.operand_conjoin none_negated] at rest
      exact (run.append further).append rest
  | @negation bang tokens c isBang _ ih =>
      simp only [AllSpelled.append_iff] at spelled
      rcases spelled with ⟨first, second⟩
      have begun : Run (.operand rule) [bang] (.operand { rule with level := rule.level.negate }) :=
        .word (first bang List.mem_cons_self) isBang (by simp) (by simp only [Place.step, isBang])
      have rest := ih second { rule with level := rule.level.negate }
      rw [Leads, Level.operand_negate] at rest
      exact begun.append rest
  | @parentheses opened closed tokens alternatives opens _ closes ih =>
      simp only [AllSpelled.append_iff] at spelled
      rcases spelled with ⟨⟨first, second⟩, third⟩
      have enters : Run (.operand rule) [opened]
          (.operand { rule with level := {}, outer := rule.level :: rule.outer }) :=
        .word (first opened List.mem_cons_self) opens (by simp) (by simp only [Place.step, opens])
      rcases ih second { rule with level := {}, outer := rule.level :: rule.outer } rfl with
        ⟨level, holds, run⟩
      have leaves : Run
          (.operandEnd { rule with level := level, outer := rule.level :: rule.outer })
          [closed] (.operandEnd { rule with
            level := rule.level.operand (gathered .any alternatives) }) := by
        apply Run.word (third closed List.mem_cons_self) closes (by simp)
        simp only [Place.step, Place.continued, closes, holds.close]
      exact (enters.append run).append leaves
  | test isWord opens isName closes isSymbol known isInteger =>
      exact run_test isWord opens isName closes isSymbol known isInteger spelled

/-! ## Rules -/

/-- A place at which the rules of a block may end or go on. -/
structure Place.EndsRule (opening : Opening) (rules : List (Rule Name)) (place : Place) : Prop where
  further : ∀ token : Token, token.terminal = .keyword .fromWord →
    place.step token = some (.ruleSource opening rules)
  last : ∀ token : Token, token.terminal = .mark .closeBrace →
    place.step token = some (declared opening (.rules rules.reverse))

private theorem block_endsRule (opening : Opening) : (Place.block opening).EndsRule opening [] where
  further token isFrom := by simp only [Place.step, isFrom]
  last token closes := by simp only [Place.step, closes, List.reverse_nil]

private theorem run_rule {opening : Opening} {rules : List (Rule Name)} {place : Place}
    (ends : place.EndsRule opening rules) {tokens : List Token} {rule : Rule Name}
    (phrase : RulePhrase tokens rule) (spelled : AllSpelled tokens) :
    ∃ next, Run place tokens next ∧ next.EndsRule opening (rule :: rules) := by
  cases phrase with
  | @mk origin source into target assign tokens alternatives isFrom isSource isTo isTarget isAssign
      condition =>
      simp only [AllSpelled.append_iff, AllSpelled.cons_iff] at spelled
      rcases spelled with ⟨⟨first, second, third, fourth, fifth, _⟩, rest⟩
      have begun : Run place [origin] (.ruleSource opening rules) :=
        .word first isFrom (by simp) (ends.further origin isFrom)
      have sourced : Run (.ruleSource opening rules) [source]
          (.ruleTo opening rules source.toName) :=
        .name second (by simp [Place.Distinguishes, Place.wanted])
          (by simp only [Place.step, isSource])
      have leading : Run (.ruleTo opening rules source.toName) [into]
          (.ruleTarget opening rules source.toName) :=
        .word third isTo (by simp) (by simp only [Place.step, isTo])
      have targeted : Run (.ruleTarget opening rules source.toName) [target]
          (.ruleAssign opening rules source.toName target.toName) :=
        .name fourth (by simp [Place.Distinguishes, Place.wanted])
          (by simp only [Place.step, isTarget])
      have assigned : Run (.ruleAssign opening rules source.toName target.toName) [assign]
          (.operand ⟨opening, rules, source.toName, target.toName, {}, []⟩) :=
        .word fifth isAssign (by simp) (by simp only [Place.step, isAssign])
      rcases condition.leads rest ⟨opening, rules, source.toName, target.toName, {}, []⟩ rfl with
        ⟨level, holds, run⟩
      refine ⟨_, (begun.append (sourced.append (leading.append (targeted.append assigned)))).append
        run, ?_, ?_⟩
      · intro token isFrom
        simp only [Place.step, Place.continued, isFrom, holds.close]
      · intro token closes
        simp only [Place.step, Place.continued, closes, holds.close]

private theorem run_rules {opening : Opening} {tokens : List Token} {rules : List (Rule Name)}
    (repeated : Repeated RulePhrase tokens rules) (spelled : AllSpelled tokens) :
    ∃ next, Run (.block opening) tokens next ∧ next.EndsRule opening rules.reverse := by
  induction repeated with
  | nil => exact ⟨_, .done, block_endsRule opening⟩
  | snoc _ phrase ih =>
      rcases AllSpelled.append_iff.mp spelled with ⟨first, second⟩
      rcases ih first with ⟨place, run, ends⟩
      rcases run_rule ends phrase second with ⟨next, further, ends⟩
      rw [List.reverse_concat]
      exact ⟨next, run.append further, ends⟩

/-! ## Values -/

/-- A value in which no name is taken for a keyword. -/
def Value.Clear : Value → Prop
  | .neighborhood (.custom block) => ∀ rule ∈ block.head?, rule.axis.text ≠ Keyword.fromWord.text
  | .states entries => EntriesClear entries
  | _ => True

/-- A place at which a program may end or go on. -/
structure Place.EndsDeclaration (finished : List Declaration) (place : Place) : Prop where
  last : place.finish? = some finished.reverse
  further : ∀ token : Token, token.IsKey → place.step token = some (.key ⟨finished, token.toName⟩)
  wanted : ∀ k : Keyword, .keyword k ∈ place.wanted → k = .neighborhood

private theorem step_keyed {earlier : List Declaration} {token : Token} (isKey : token.IsKey) :
    Place.keyed earlier token = some (.key ⟨earlier, token.toName⟩) := by
  rcases isKey with isName | isKeyword
  · simp only [Place.keyed, isName]
  · simp only [Place.keyed, isKeyword]

theorem Place.between_ends (finished : List Declaration) :
    (between finished).EndsDeclaration finished where
  last := rfl
  further _ isKey := step_keyed isKey
  wanted k sought := by simpa [wanted, afterDeclaration] using sought

private theorem rank_ends (opening : Opening) (r : Nat) :
    (Place.rank opening r).EndsDeclaration
      (⟨opening.key, .environment ⟨r, []⟩⟩ :: opening.earlier) where
  last := rfl
  further token isKey := by
    rw [← step_keyed isKey]
    rcases isKey with isName | isKeyword
    · simp only [Place.step, isName]
    · simp only [Place.step, isKeyword]
  wanted k sought := by simpa [Place.wanted, Place.afterDeclaration] using sought

private theorem static_ends (opening : Opening) :
    (Place.static opening).EndsDeclaration
      (⟨opening.key, .boundary (.static none)⟩ :: opening.earlier) where
  last := rfl
  further token isKey := by
    rw [← step_keyed isKey]
    rcases isKey with isName | isKeyword
    · simp only [Place.step, isName]
    · simp only [Place.step, isKeyword]
  wanted k sought := by simpa [Place.wanted, Place.afterDeclaration] using sought

theorem Place.ends_of_finish? {place : Place} {program : List Declaration}
    (finished : place.finish? = some program) : place.EndsDeclaration program.reverse := by
  cases place
  case between declarations =>
    obtain rfl := Option.some.inj finished
    rw [List.reverse_reverse]
    exact between_ends declarations
  case rank opening r =>
    obtain rfl := Option.some.inj finished
    rw [List.reverse_reverse]
    exact rank_ends opening r
  case static opening =>
    obtain rfl := Option.some.inj finished
    rw [List.reverse_reverse]
    exact static_ends opening
  all_goals exact absurd finished nofun

/-- A value behind which its declaration is finished. -/
private theorem exists_of_declared {opening : Opening} {tokens : List Token} {value : Value}
    (run : Run (.value opening) tokens (Place.declared opening value)) :
    ∃ next, Run (.value opening) tokens next ∧
      next.EndsDeclaration (⟨opening.key, value⟩ :: opening.earlier) :=
  ⟨_, run, Place.between_ends _⟩

private theorem run_openBrace {opening : Opening} {opened : Token} (spelled : AllSpelled [opened])
    (opens : opened.terminal = .mark .openBrace) :
    Run (.value opening) [opened] (.block opening) :=
  .word (spelled opened List.mem_cons_self) opens (by simp) (by simp only [Place.step, opens])

/-- The tokens of a value lead to the end of its declaration. -/
theorem ValuePhrase.run {opening : Opening} {tokens : List Token} {value : Value}
    (phrase : ValuePhrase tokens value) (spelled : AllSpelled tokens) (clear : value.Clear) :
    ∃ next, Run (.value opening) tokens next ∧
      next.EndsDeclaration (⟨opening.key, value⟩ :: opening.earlier) := by
  cases phrase with
  | @environment rank isRank =>
      have ranked : Run (.value opening) [rank] (.rank opening rank.toRank) :=
        .word (spelled rank List.mem_cons_self) isRank (by simp)
          (by simp only [Place.step, isRank])
      exact ⟨_, ranked, rank_ends opening rank.toRank⟩
  | @sizes rank colons opened closed tokens sizes isRank isColons opens series closes =>
      simp only [AllSpelled.append_iff, AllSpelled.cons_iff] at spelled
      rcases spelled with ⟨⟨⟨first, second, third, _⟩, inner⟩, last, _⟩
      have ranked : Run (.value opening) [rank] (.rank opening rank.toRank) :=
        .word first isRank (by simp) (by simp only [Place.step, isRank])
      have further : Run (.rank opening rank.toRank) [colons] (.sizesOpen opening rank.toRank) :=
        .word second isColons (by simp) (by simp only [Place.step, isColons])
      have enters : Run (.sizesOpen opening rank.toRank) [opened] (.size opening rank.toRank []) :=
        .word third opens (by simp) (by simp only [Place.step, opens])
      have leaves : Run (.sizeEnd opening rank.toRank sizes.reverse) [closed]
          (Place.declared opening (.environment ⟨rank.toRank, sizes⟩)) := by
        apply Run.word last closes (by simp)
        simp only [Place.step, closes, List.reverse_reverse]
      apply exists_of_declared
      exact ((ranked.append (further.append enters)).append (run_sizes series inner)).append leaves
  | @moore word isWord =>
      apply exists_of_declared
      apply Run.word (spelled word List.mem_cons_self) isWord (by simp)
      simp only [Place.step, isWord]
  | @vonNeumann word isWord =>
      apply exists_of_declared
      apply Run.word (spelled word List.mem_cons_self) isWord (by simp)
      simp only [Place.step, isWord]
  | @void word isWord =>
      apply exists_of_declared
      apply Run.word (spelled word List.mem_cons_self) isWord (by simp)
      simp only [Place.step, isWord]
  | @wrap word isWord =>
      apply exists_of_declared
      apply Run.word (spelled word List.mem_cons_self) isWord (by simp)
      simp only [Place.step, isWord]
  | @static word isWord =>
      have begun : Run (.value opening) [word] (.static opening) :=
        .word (spelled word List.mem_cons_self) isWord (by simp)
          (by simp only [Place.step, isWord])
      exact ⟨_, begun, static_ends opening⟩
  | @staticState word colons opened state closed isWord isColons opens isName closes =>
      simp only [AllSpelled.cons_iff] at spelled
      rcases spelled with ⟨first, second, third, fourth, fifth, _⟩
      have begun : Run (.value opening) [word] (.static opening) :=
        .word first isWord (by simp) (by simp only [Place.step, isWord])
      have further : Run (.static opening) [colons] (.staticColons opening) :=
        .word second isColons (by simp) (by simp only [Place.step, isColons])
      have enters : Run (.staticColons opening) [opened] (.staticOpen opening) :=
        .word third opens (by simp) (by simp only [Place.step, opens])
      have inside : Run (.staticOpen opening) [state] (.staticState opening state.toName) :=
        .name fourth (by simp [Place.Distinguishes, Place.wanted])
          (by simp only [Place.step, isName])
      have leaves : Run (.staticState opening state.toName) [closed]
          (Place.declared opening (.boundary (.static (some state.toName)))) :=
        .word fifth closes (by simp) (by simp only [Place.step, closes])
      apply exists_of_declared
      exact begun.append (further.append (enters.append (inside.append leaves)))
  | @offsets opened closed tokens rules opens series closes =>
      simp only [AllSpelled.append_iff] at spelled
      rcases spelled with ⟨⟨first, inner⟩, last⟩
      have enters : Run (.value opening) [opened] (.block opening) := run_openBrace first opens
      have leaves : Run (.offsetEnd opening rules.reverse) [closed]
          (Place.declared opening (.neighborhood (.custom rules))) := by
        apply Run.word (last closed List.mem_cons_self) closes (by simp)
        simp only [Place.step, closes, List.reverse_reverse]
      apply exists_of_declared
      exact (enters.append (run_offsets series inner clear)).append leaves
  | @states opened closed tokens entries opens series closes =>
      simp only [AllSpelled.append_iff] at spelled
      rcases spelled with ⟨⟨first, inner⟩, last⟩
      have enters : Run (.value opening) [opened] (.block opening) := run_openBrace first opens
      have entered : ∃ next, Run (.block opening) tokens next ∧
          next.EndsEntry opening entries.reverse := run_entries series inner clear
      rcases entered with ⟨place, run, ends⟩
      have leaves : Run place [closed] (Place.declared opening (.states entries)) := by
        apply Run.word (last closed List.mem_cons_self) closes (by simp)
        rw [ends.step closed (Or.inr closes)]
        simp only [Place.nextEntry, closes, List.reverse_reverse]
      apply exists_of_declared
      exact (enters.append run).append leaves
  | @rules opened closed tokens rules opens repeated closes =>
      simp only [AllSpelled.append_iff] at spelled
      rcases spelled with ⟨⟨first, inner⟩, last⟩
      have enters : Run (.value opening) [opened] (.block opening) := run_openBrace first opens
      have ruled : ∃ next, Run (.block opening) tokens next ∧
          next.EndsRule opening rules.reverse := run_rules repeated inner
      rcases ruled with ⟨place, run, ends⟩
      have leaves : Run place [closed] (Place.declared opening (.rules rules)) := by
        apply Run.word (last closed List.mem_cons_self) closes (by simp)
        rw [ends.last closed closes, List.reverse_reverse]
      apply exists_of_declared
      exact (enters.append run).append leaves

/-! ## Declarations -/

/-- The tokens of a declaration lead from the end of one declaration to the end of the next,
unless its key is a name where it should be a keyword. -/
theorem DeclarationPhrase.run {finished : List Declaration} {place : Place}
    (ends : place.EndsDeclaration finished) {tokens : List Token} {declaration : Declaration}
    (phrase : DeclarationPhrase tokens declaration) (spelled : AllSpelled tokens)
    (keyClear : ∀ key ∈ tokens.head?, key.terminal = .name →
      key.text ≠ Keyword.neighborhood.text)
    (clear : declaration.value.Clear) :
    ∃ next, Run place tokens next ∧ next.EndsDeclaration (declaration :: finished) := by
  cases phrase with
  | @mk key assign tokens value isKey isAssign phrase =>
      simp only [AllSpelled.append_iff, AllSpelled.cons_iff] at spelled
      rcases spelled with ⟨⟨first, second, _⟩, rest⟩
      have begun : Run place [key] (.key ⟨finished, key.toName⟩) := by
        refine .token ⟨Place.wanted_of_step (ends.further key isKey), first, ?_⟩
          (ends.further key isKey) .done
        intro isName k sought same
        rw [ends.wanted k sought] at same
        exact keyClear key rfl isName same.symm
      have assigned : Run (.key ⟨finished, key.toName⟩) [assign]
          (.value ⟨finished, key.toName⟩) :=
        .word second isAssign (by simp) (by simp only [Place.step, isAssign])
      have valued : ∃ next, Run (.value ⟨finished, key.toName⟩) tokens next ∧
          next.EndsDeclaration (⟨key.toName, value⟩ :: finished) := phrase.run rest clear
      rcases valued with ⟨next, run, ends⟩
      exact ⟨next, (begun.append assigned).append run, ends⟩

end Cellular
