import Cellular.Proofs.Condition.Truth
import Cellular.Proofs.Source.Reading

/-!
# Programs that can be read

Not every list of declarations can be read from a text. Names have to be spelled, blocks of
offsets or states are not empty, a conjunction has at least two operands, and where a name
would be taken for a keyword it is another one: the first name of a block is not `from`,
the second state is not `within` if the first has no attributes, and no attribute has the
key `default`. All this holds of every program that is read, because it holds of what has
been read at every place on the way.
-/

namespace Cellular

/-! ## Readable parts -/

/-- A name that can be spelled. -/
def Name.Spelled (name : Name) : Prop :=
  Terminal.name.Spells name.text.toList

/-- A name that can stand for axes. -/
def Name.IsAxis (name : Name) : Prop :=
  name.text = Mark.star.text ∨ name.Spelled

/-- An environment that can be read: its rank is one, two or three, and its axes can. -/
structure Environment.Readable (space : Environment) : Prop where
  rank : space.rank = 1 ∨ space.rank = 2 ∨ space.rank = 3
  axes : ∀ size ∈ space.sizes, size.1.IsAxis

/-- The first rule does not begin like a rule that changes states. -/
structure OffsetsReadable (rules : List OffsetRule) : Prop where
  axes : ∀ rule ∈ rules, rule.axis.IsAxis
  first : ∀ rule ∈ rules.head?, rule.axis.text ≠ Keyword.fromWord.text

/-- A neighbourhood that can be read: it has a rule, unless its shape has a name. -/
def Neighborhood.Readable : Neighborhood → Prop
  | .moore | .vonNeumann => True
  | .custom rules => rules ≠ [] ∧ OffsetsReadable rules

/-- An attribute that can be read: its key is not the word for the default. -/
def Attribute.Readable : Attribute → Prop
  | .defaultMark => True
  | .keyed key token => key.Spelled ∧ key.text ≠ Keyword.defaultWord.text ∧ token.Spelled

/-- A state that can be read: it and its attributes have spelled names. -/
structure StateEntry.Readable (entry : StateEntry) : Prop where
  name : entry.name.Spelled
  attributes : ∀ mark ∈ entry.attributes, mark.Readable

/-- A block of states begins neither like one of rules nor like one of offsets. -/
structure StatesReadable (entries : List StateEntry) : Prop where
  each : ∀ entry ∈ entries, entry.Readable
  first : ∀ entry ∈ entries.head?, entry.name.text ≠ Keyword.fromWord.text
  second : ∀ entry next rest, entries = entry :: next :: rest → entry.attributes = [] →
    next.name.text ≠ Keyword.within.text

mutual

/-- A condition that can be read: its nodes have at least two operands each, and it speaks
of spelled states. -/
def Condition.Readable : Condition (CountTest Name) → Prop
  | .test a => a.state.Spelled
  | .always => False
  | .not c => c.Readable
  | .all cs | .any cs => 2 ≤ cs.length ∧ Condition.ReadableAll cs

/-- The same for every operand of a list. -/
def Condition.ReadableAll : List (Condition (CountTest Name)) → Prop
  | [] => True
  | c :: cs => c.Readable ∧ Condition.ReadableAll cs

end

/-- A rule that can be read: its states have spelled names, and its condition can be read. -/
structure Rule.Readable (rule : Rule Name) : Prop where
  source : rule.source.Spelled
  target : rule.target.Spelled
  condition : rule.condition.Readable

/-- A value that can be read. -/
def Value.Readable : Value → Prop
  | .environment space => space.Readable
  | .neighborhood shape => shape.Readable
  | .boundary .void | .boundary .wrap | .boundary (.static none) => True
  | .boundary (.static (some state)) => state.Spelled
  | .states block => block ≠ [] ∧ StatesReadable block
  | .rules block => ∀ rule ∈ block, rule.Readable

/-- A declaration that can be read. -/
structure Declaration.Readable (declaration : Declaration) : Prop where
  key : declaration.key.Spelled
  value : declaration.value.Readable

/-! ## Conditions -/

namespace Condition

theorem readableAll_iff {cs : List (Condition (CountTest Name))} :
    ReadableAll cs ↔ ∀ c ∈ cs, c.Readable := by
  induction cs with
  | nil => simp [ReadableAll]
  | cons c cs ih => rw [ReadableAll, ih, List.forall_mem_cons]

theorem Readable.branching {c : Condition (CountTest Name)} (readable : c.Readable) :
    c.Branching 2 := by
  induction c using inductOn with
  | test a => trivial
  | always => trivial
  | not c ih => exact ih readable
  | all cs ih | any cs ih =>
      rcases readable with ⟨enough, operands⟩
      constructor
      · exact enough
      · apply branchingAll_iff.mpr
        intro c member
        exact ih c member (readableAll_iff.mp operands c member)

end Condition

theorem negated_readable {c : Condition (CountTest Name)} (readable : c.Readable) (n : Nat) :
    (negated n c).Readable := by
  induction n with
  | zero => exact readable
  | succ n ih => exact ih

/-- Operands that form a node, or one operand that stands for itself. -/
theorem joined_readable {node : List (Condition (CountTest Name)) → Condition (CountTest Name)}
    (kind : ∀ cs, 2 ≤ cs.length → Condition.ReadableAll cs → (node cs).Readable)
    {operands : List (Condition (CountTest Name))} (nonempty : operands ≠ [])
    (readable : ∀ c ∈ operands, c.Readable) : (joined node operands).Readable := by
  match operands with
  | [] => exact absurd rfl nonempty
  | [single] => exact readable single List.mem_cons_self
  | first :: second :: rest =>
      apply kind
      · simp
      · rw [Condition.readableAll_iff]
        intro c member
        exact readable c (List.mem_reverse.mp member)

/-! ## Readable places -/

/-- The finished declarations are readable, and the key of the next one is spelled. -/
structure Opening.Readable (opening : Opening) : Prop where
  earlier : ∀ declaration ∈ opening.earlier, declaration.Readable
  key : opening.key.Spelled

/-- Whatever attributes the open state is given, the block is readable so far. -/
structure OpenState.Readable (entry : OpenState) : Prop where
  opening : entry.opening.Readable
  block : ∀ marks, (∀ mark ∈ marks, Attribute.Readable mark) →
    StatesReadable (Place.entered entry marks).reverse

/-- The attributes so far are readable. -/
def AttributeList.Readable : AttributeList → Prop
  | .alone => True
  | .grouped finished => ∀ mark ∈ finished, mark.Readable

/-- The finished alternatives and operands of the level are readable. -/
structure Level.Readable (level : Level) : Prop where
  alternatives : ∀ c ∈ level.alternatives, c.Readable
  conjuncts : ∀ c ∈ level.conjuncts, c.Readable

/-- Everything that is known of the open rule is readable. -/
structure OpenRule.Readable (rule : OpenRule) : Prop where
  opening : rule.opening.Readable
  earlier : ∀ finished ∈ rule.earlier, finished.Readable
  source : rule.source.Spelled
  target : rule.target.Spelled
  level : rule.level.Readable
  outer : ∀ level ∈ rule.outer, level.Readable

/-- What has been read up to a place is readable. -/
def Place.Readable : Place → Prop
  | between finished => ∀ declaration ∈ finished, declaration.Readable
  | key opening | value opening | static opening | staticColons opening | staticOpen opening
  | block opening => opening.Readable
  | rank opening r | sizesOpen opening r => opening.Readable ∧ Environment.Readable ⟨r, []⟩
  | size opening r sizes | sizeEnd opening r sizes =>
    opening.Readable ∧ Environment.Readable ⟨r, sizes⟩
  | sizeAxis opening r sizes axis | sizeEqual opening r sizes axis =>
    opening.Readable ∧ Environment.Readable ⟨r, sizes⟩ ∧ axis.IsAxis
  | staticState opening name => opening.Readable ∧ name.Spelled
  | firstName opening name =>
    opening.Readable ∧ name.Spelled ∧ name.text ≠ Keyword.fromWord.text
  | offset opening rules | offsetEnd opening rules =>
    opening.Readable ∧ rules ≠ [] ∧ OffsetsReadable rules.reverse
  | offsetAxis opening rules axis | offsetDirection opening rules axis _ =>
    opening.Readable ∧ ∀ direction magnitude,
      OffsetsReadable (⟨axis, direction, magnitude⟩ :: rules).reverse
  | state entry => entry.Readable ∧ entry.earlier ≠ []
  | stateColons entry => entry.Readable
  | attributeStart entry finished => entry.Readable ∧ ∀ mark ∈ finished, mark.Readable
  | attributeKey entry list name | attributeOpen entry list name =>
    entry.Readable ∧ list.Readable ∧ name.Spelled ∧ name.text ≠ Keyword.defaultWord.text
  | attributeToken entry list name word =>
    entry.Readable ∧ list.Readable ∧ (Attribute.keyed name word).Readable
  | attributeEnd entry list last => entry.Readable ∧ list.Readable ∧ last.Readable
  | stateEnd opening entries =>
    opening.Readable ∧ entries ≠ [] ∧ StatesReadable entries.reverse ∧
      ∀ entry, entries = [entry] → entry.attributes ≠ []
  | ruleSource opening rules => opening.Readable ∧ ∀ rule ∈ rules, rule.Readable
  | ruleTo opening rules source | ruleTarget opening rules source =>
    opening.Readable ∧ (∀ rule ∈ rules, rule.Readable) ∧ source.Spelled
  | ruleAssign opening rules source target =>
    opening.Readable ∧ (∀ rule ∈ rules, rule.Readable) ∧ source.Spelled ∧ target.Spelled
  | operand rule | test rule | testOpen rule => rule.Readable
  | testState rule name | testComparison rule name | testBound rule name _ =>
    rule.Readable ∧ name.Spelled
  | operandEnd rule => rule.Readable ∧ rule.level.conjuncts ≠ []

/-! ## Steps between readable places -/

theorem Token.Spelled.toName {token : Token} (spelled : token.Spelled)
    (isName : token.terminal = .name) : token.toName.Spelled := by
  rw [Token.Spelled, isName] at spelled
  exact spelled

theorem Token.Spelled.mark_text {token : Token} (spelled : token.Spelled) {m : Mark}
    (isMark : token.terminal = .mark m) : token.text = m.text := by
  rw [Token.Spelled, isMark] at spelled
  exact String.toList_inj.mp spelled

theorem Token.Spelled.isAxis {token : Token} (spelled : token.Spelled)
    (axis : token.terminal = .name ∨ token.terminal = .mark .star) : token.toName.IsAxis := by
  rcases axis with isName | isStar
  · exact Or.inr (spelled.toName isName)
  · exact Or.inl (spelled.mark_text isStar)

theorem Admits.ne_keyword {wanted : List Terminal} {token : Token} (admits : Admits wanted token)
    (isName : token.terminal = .name) {k : Keyword} (sought : .keyword k ∈ wanted) :
    token.toName.text ≠ k.text :=
  fun same => admits.ordinary isName k sought same.symm

namespace Level

theorem Readable.operand {level : Level} (readable : level.Readable)
    {c : Condition (CountTest Name)} (operand : c.Readable) : (level.operand c).Readable :=
  ⟨readable.alternatives,
    List.forall_mem_cons.mpr ⟨negated_readable operand level.negations, readable.conjuncts⟩⟩

theorem Readable.conjunction {level : Level} (readable : level.Readable)
    (nonempty : level.conjuncts ≠ []) : (joined .all level.conjuncts).Readable :=
  joined_readable (by intro cs enough operands; exact ⟨enough, operands⟩) nonempty
    readable.conjuncts

theorem Readable.alternative {level : Level} (readable : level.Readable)
    (nonempty : level.conjuncts ≠ []) : level.alternative.Readable :=
  ⟨List.forall_mem_cons.mpr ⟨readable.conjunction nonempty, readable.alternatives⟩,
    fun _ member => absurd member List.not_mem_nil⟩

theorem Readable.close {level : Level} (readable : level.Readable)
    (nonempty : level.conjuncts ≠ []) : level.close.Readable :=
  joined_readable (by intro cs enough operands; exact ⟨enough, operands⟩) (List.cons_ne_nil _ _)
    (List.forall_mem_cons.mpr ⟨readable.conjunction nonempty, readable.alternatives⟩)

end Level

theorem StatesReadable.snoc {entries : List StateEntry} (block : StatesReadable entries)
    (nonempty : entries ≠ []) {next : StateEntry} (readable : next.Readable)
    (apart : ∀ entry, entries = [entry] → entry.attributes = [] →
      next.name.text ≠ Keyword.within.text) : StatesReadable (entries ++ [next]) where
  each := List.forall_mem_append.mpr ⟨block.each, List.forall_mem_singleton.mpr readable⟩
  first := by
    rcases entries with _ | ⟨entry, entries⟩
    · exact absurd rfl nonempty
    · exact block.first
  second := by
    intro entry other rest split unmarked
    rcases entries with _ | ⟨first, _ | ⟨second, entries⟩⟩
    · exact absurd rfl nonempty
    · obtain ⟨rfl, rfl, _⟩ : first = entry ∧ next = other ∧ [] = rest := by simpa using split
      exact apart first rfl unmarked
    · obtain ⟨rfl, rfl, _⟩ : first = entry ∧ second = other ∧ entries ++ [next] = rest := by
        simpa using split
      exact block.second first second entries rfl unmarked

theorem OffsetsReadable.snoc {rules : List OffsetRule} (block : OffsetsReadable rules)
    {next : OffsetRule} (axis : next.axis.IsAxis)
    (apart : rules = [] → next.axis.text ≠ Keyword.fromWord.text) :
    OffsetsReadable (rules ++ [next]) where
  axes := List.forall_mem_append.mpr ⟨block.axes, List.forall_mem_singleton.mpr axis⟩
  first := by
    rcases rules with _ | ⟨rule, rules⟩
    · intro rule member
      obtain rfl : next = rule := Option.some.inj member
      exact apart rfl
    · exact block.first

/-- After a first rule any axis may follow. -/
theorem OffsetsReadable.axis {rules : List OffsetRule} (block : OffsetsReadable rules.reverse)
    (nonempty : rules ≠ []) {axis : Name} (isAxis : axis.IsAxis) (direction : Direction)
    (magnitude : Int) : OffsetsReadable (⟨axis, direction, magnitude⟩ :: rules).reverse := by
  rw [List.reverse_cons]
  apply block.snoc isAxis
  intro none
  exact absurd (List.reverse_eq_nil_iff.mp none) nonempty

namespace Place

theorem keyed_readable {earlier : List Declaration} {token : Token} {next : Place}
    (readable : ∀ declaration ∈ earlier, declaration.Readable) (spelled : token.Spelled)
    (stepped : keyed earlier token = some next) : next.Readable := by
  simp only [keyed] at stepped
  split at stepped <;> cases stepped
  · rename_i isName
    exact ⟨readable, spelled.toName isName⟩
  · rename_i isKeyword
    rw [Token.Spelled, isKeyword] at spelled
    constructor
    · exact readable
    · rw [Name.Spelled, Token.toName, spelled]
      exact Keyword.neighborhood.spells_name

theorem declared_readable {opening : Opening} {value : Value} (readable : opening.Readable)
    (assigned : value.Readable) : (declared opening value).Readable :=
  List.forall_mem_cons.mpr ⟨⟨readable.key, assigned⟩, readable.earlier⟩

theorem directed_readable {opening : Opening} {rules : List OffsetRule} {axis : Name}
    {token : Token} {next : Place} (readable : opening.Readable)
    (block : ∀ direction magnitude,
      OffsetsReadable (⟨axis, direction, magnitude⟩ :: rules).reverse)
    (stepped : directed opening rules axis token = some next) : next.Readable := by
  simp only [directed] at stepped
  split at stepped <;> cases stepped
  all_goals exact ⟨readable, block⟩

theorem nextEntry_readable {opening : Opening} {entries : List StateEntry} {token : Token}
    {next : Place} (readable : opening.Readable) (nonempty : entries ≠ [])
    (block : StatesReadable entries.reverse) (spelled : token.Spelled)
    (apart : ∀ entry, entries = [entry] → entry.attributes = [] → token.terminal = .name →
      token.text ≠ Keyword.within.text)
    (stepped : nextEntry opening entries token = some next) : next.Readable := by
  simp only [nextEntry] at stepped
  split at stepped <;> cases stepped
  · rename_i isName
    refine ⟨⟨readable, ?_⟩, nonempty⟩
    intro marks marked
    rw [entered, List.reverse_cons]
    apply block.snoc (List.reverse_ne_nil_iff.mpr nonempty)
    · exact ⟨spelled.toName isName, fun mark member => marked mark (List.mem_reverse.mp member)⟩
    · intro entry alone unmarked
      exact apart entry (List.reverse_eq_iff.mp alone) unmarked isName
  · exact declared_readable readable ⟨List.reverse_ne_nil_iff.mpr nonempty, block⟩

theorem marked_readable {entry : OpenState} {list : AttributeList} {token : Token} {next : Place}
    (readable : entry.Readable) (listed : list.Readable) (spelled : token.Spelled)
    (apart : token.terminal = .name → token.toName.text ≠ Keyword.defaultWord.text)
    (stepped : marked entry list token = some next) : next.Readable := by
  simp only [marked] at stepped
  split at stepped <;> cases stepped
  · rename_i isName
    exact ⟨readable, listed, spelled.toName isName, apart isName⟩
  · exact ⟨readable, listed, trivial⟩

theorem continued_readable {rule : OpenRule} {token : Token} {next : Place}
    (readable : rule.Readable) (nonempty : rule.level.conjuncts ≠ [])
    (stepped : continued rule token = some next) : next.Readable := by
  have finished : ∀ other ∈ (⟨rule.source, rule.target, rule.level.close⟩ : Rule Name) ::
      rule.earlier, other.Readable :=
    List.forall_mem_cons.mpr
      ⟨⟨readable.source, readable.target, readable.level.close nonempty⟩, readable.earlier⟩
  simp only [continued] at stepped
  split at stepped <;> cases stepped
  · exact readable
  · exact { readable with level := readable.level.alternative nonempty }
  · rename_i level outer _ enclosed
    have levels := readable.outer
    rw [enclosed, List.forall_mem_cons] at levels
    refine ⟨{ readable with level := ?_, outer := levels.2 }, List.cons_ne_nil _ _⟩
    exact levels.1.operand (readable.level.close nonempty)
  · exact ⟨readable.opening, finished⟩
  · apply declared_readable readable.opening
    intro other member
    exact finished other (List.mem_reverse.mp member)

/-! ### Single places -/

/-- A token that is admitted leads on to a readable place, if the place is readable. -/
def StaysReadable (place : Place) : Prop :=
  ∀ (token : Token) (next : Place), place.Readable → Admits place.wanted token →
    place.step token = some next → next.Readable

variable {opening : Opening}

/-! ### Declarations -/

theorem staysReadable_value : (value opening).StaysReadable := by
  intro token next readable admits stepped
  have spelled := admits.spelled
  simp only [Place.step] at stepped
  split at stepped <;> cases stepped
  · rename_i isRank
    refine ⟨readable, ?_, fun _ member => absurd member List.not_mem_nil⟩
    rw [Token.Spelled, isRank] at spelled
    rcases spelled with ⟨digit, known, spelling⟩
    simp only [Token.toRank, spelling]
    rcases known with rfl | rfl | rfl <;> decide
  all_goals first | exact readable | exact declared_readable readable trivial

/-! ### Sizes -/

theorem staysReadable_rank {r : Nat} : (rank opening r).StaysReadable := by
  intro token next readable admits stepped
  have spelled := admits.spelled
  simp only [Place.step] at stepped
  split at stepped
  · cases stepped
    exact readable
  · refine keyed_readable (List.forall_mem_cons.mpr ⟨?_, readable.1.earlier⟩) spelled stepped
    exact ⟨readable.1.key, readable.2⟩

theorem staysReadable_size {r : Nat} {sizes : List (Name × Int)} :
    (size opening r sizes).StaysReadable := by
  intro token next readable admits stepped
  have spelled := admits.spelled
  simp only [Place.step] at stepped
  split at stepped <;> cases stepped
  · rename_i isName
    exact ⟨readable.1, readable.2, spelled.isAxis (Or.inl isName)⟩
  · rename_i isStar
    exact ⟨readable.1, readable.2, spelled.isAxis (Or.inr isStar)⟩

theorem staysReadable_sizeEqual {r : Nat} {sizes : List (Name × Int)} {axis : Name} :
    (sizeEqual opening r sizes axis).StaysReadable := by
  intro token next readable admits stepped
  simp only [Place.step] at stepped
  split at stepped <;> cases stepped
  rcases readable with ⟨opened, space, axis⟩
  exact ⟨opened, space.rank, List.forall_mem_cons.mpr ⟨axis, space.axes⟩⟩

theorem staysReadable_sizeEnd {r : Nat} {sizes : List (Name × Int)} :
    (sizeEnd opening r sizes).StaysReadable := by
  intro token next readable admits stepped
  simp only [Place.step] at stepped
  split at stepped <;> cases stepped
  · exact readable
  · apply declared_readable readable.1
    constructor
    · exact readable.2.rank
    · intro size member
      exact readable.2.axes size (List.mem_reverse.mp member)

/-! ### Static boundaries -/

theorem staysReadable_static : (static opening).StaysReadable := by
  intro token next readable admits stepped
  have spelled := admits.spelled
  simp only [Place.step] at stepped
  split at stepped
  · cases stepped
    exact readable
  · refine keyed_readable (List.forall_mem_cons.mpr ⟨?_, readable.earlier⟩) spelled stepped
    exact ⟨readable.key, trivial⟩

theorem staysReadable_staticOpen : (staticOpen opening).StaysReadable := by
  intro token next readable admits stepped
  have spelled := admits.spelled
  simp only [Place.step] at stepped
  split at stepped <;> cases stepped
  rename_i isName
  exact ⟨readable, spelled.toName isName⟩

theorem staysReadable_staticState {name : Name} : (staticState opening name).StaysReadable := by
  intro token next readable admits stepped
  simp only [Place.step] at stepped
  split at stepped <;> cases stepped
  exact declared_readable readable.1 readable.2

/-! ### Blocks -/

theorem staysReadable_block : (block opening).StaysReadable := by
  intro token next readable admits stepped
  have spelled := admits.spelled
  simp only [Place.step] at stepped
  split at stepped <;> cases stepped
  · rename_i isStar
    have axis := spelled.isAxis (Or.inr isStar)
    refine ⟨readable, fun _ _ => ⟨List.forall_mem_singleton.mpr axis, ?_⟩⟩
    intro rule member
    obtain rfl := Option.some.inj member
    simp only [Token.toName, spelled.mark_text isStar]
    decide
  · rename_i isName
    exact ⟨readable, spelled.toName isName, admits.ne_keyword isName (by simp [wanted])⟩
  · exact ⟨readable, fun _ member => absurd member List.not_mem_nil⟩
  · exact declared_readable readable fun _ member => absurd member List.not_mem_nil

theorem staysReadable_firstName {name : Name} : (firstName opening name).StaysReadable := by
  intro token next readable admits stepped
  have spelled := admits.spelled
  rcases readable with ⟨opened, isName, apart⟩
  have single : ∀ marks : List Attribute, (∀ mark ∈ marks, mark.Readable) →
      StatesReadable [⟨name, marks⟩] := by
    intro marks marked
    constructor
    · exact List.forall_mem_singleton.mpr ⟨isName, marked⟩
    · intro entry member
      obtain rfl := Option.some.inj member
      exact apart
    · simp
  simp only [Place.step] at stepped
  split at stepped
  · cases stepped
    constructor
    · exact opened
    · intro marks marked
      exact single _ fun mark member => marked mark (List.mem_reverse.mp member)
  · refine nextEntry_readable opened (List.cons_ne_nil (StateEntry.mk name []) [])
      (single [] (by simp)) spelled ?_ stepped
    intro entry _ _ isName
    exact admits.ne_keyword isName (by simp [wanted, directions])
  · refine nextEntry_readable opened (List.cons_ne_nil (StateEntry.mk name []) [])
      (single [] (by simp)) spelled ?_ stepped
    intro entry _ _ isName
    exact admits.ne_keyword isName (by simp [wanted, directions])
  · apply directed_readable opened _ stepped
    intro direction magnitude
    constructor
    · exact List.forall_mem_singleton.mpr (Or.inr isName)
    · intro rule member
      obtain rfl := Option.some.inj member
      exact apart

/-! ### Offsets -/

theorem staysReadable_offset {rules : List OffsetRule} : (offset opening rules).StaysReadable := by
  intro token next readable admits stepped
  have spelled := admits.spelled
  rcases readable with ⟨opened, nonempty, block⟩
  simp only [Place.step] at stepped
  split at stepped <;> cases stepped
  · rename_i isName
    exact ⟨opened, block.axis nonempty (spelled.isAxis (Or.inl isName))⟩
  · rename_i isStar
    exact ⟨opened, block.axis nonempty (spelled.isAxis (Or.inr isStar))⟩

theorem staysReadable_offsetAxis {rules : List OffsetRule} {axis : Name} :
    (offsetAxis opening rules axis).StaysReadable := by
  intro token next readable admits stepped
  exact directed_readable readable.1 readable.2 stepped

theorem staysReadable_offsetDirection {rules : List OffsetRule} {axis : Name}
    {direction : Direction} :
    (offsetDirection opening rules axis direction).StaysReadable := by
  intro token next readable admits stepped
  simp only [Place.step] at stepped
  split at stepped <;> cases stepped
  exact ⟨readable.1, List.cons_ne_nil _ _, readable.2 _ _⟩

theorem staysReadable_offsetEnd {rules : List OffsetRule} :
    (offsetEnd opening rules).StaysReadable := by
  intro token next readable admits stepped
  have spelled := admits.spelled
  rcases readable with ⟨opened, nonempty, block⟩
  simp only [Place.step] at stepped
  split at stepped <;> cases stepped
  · exact ⟨opened, nonempty, block⟩
  · rename_i isName
    exact ⟨opened, block.axis nonempty (spelled.isAxis (Or.inl isName))⟩
  · rename_i isStar
    exact ⟨opened, block.axis nonempty (spelled.isAxis (Or.inr isStar))⟩
  · exact declared_readable opened ⟨List.reverse_ne_nil_iff.mpr nonempty, block⟩

/-! ### States -/

theorem staysReadable_state {entry : OpenState} : (state entry).StaysReadable := by
  intro token next readable admits stepped
  have spelled := admits.spelled
  rcases readable with ⟨opened, nonempty⟩
  simp only [Place.step] at stepped
  split at stepped
  · cases stepped
    exact opened
  · apply nextEntry_readable opened.opening (List.cons_ne_nil _ _) (opened.block [] (by simp))
      spelled _ stepped
    intro entry alone
    exact absurd (List.cons.inj alone).2 nonempty

theorem staysReadable_stateColons {entry : OpenState} : (stateColons entry).StaysReadable := by
  intro token next readable admits stepped
  have spelled := admits.spelled
  simp only [Place.step] at stepped
  split at stepped
  · cases stepped
    exact ⟨readable, fun _ member => absurd member List.not_mem_nil⟩
  · exact marked_readable readable (by trivial) spelled
      (fun isName => admits.ne_keyword isName (by simp [wanted])) stepped

theorem staysReadable_attributeStart {entry : OpenState} {finished : List Attribute} :
    (attributeStart entry finished).StaysReadable := by
  intro token next readable admits stepped
  have spelled := admits.spelled
  exact marked_readable readable.1 (by exact readable.2) spelled
    (fun isName => admits.ne_keyword isName (by simp [wanted])) stepped

theorem staysReadable_attributeOpen {entry : OpenState} {list : AttributeList} {name : Name} :
    (attributeOpen entry list name).StaysReadable := by
  intro token next readable admits stepped
  have spelled := admits.spelled
  simp only [Place.step] at stepped
  split at stepped <;> cases stepped
  rename_i isName
  rcases readable with ⟨opened, listed, key, apart⟩
  exact ⟨opened, listed, key, apart, spelled.toName isName⟩

theorem staysReadable_attributeEnd {entry : OpenState} {list : AttributeList} {last : Attribute} :
    (attributeEnd entry list last).StaysReadable := by
  intro token next readable admits stepped
  have spelled := admits.spelled
  rcases readable with ⟨opened, listed, isLast⟩
  cases list with
  | alone =>
      apply nextEntry_readable opened.opening (List.cons_ne_nil _ _)
        (opened.block [last] (List.forall_mem_singleton.mpr isLast)) spelled _ stepped
      intro other alone unmarked
      obtain rfl := (List.cons.inj alone).1
      exact absurd unmarked (List.cons_ne_nil _ _)
  | grouped finished =>
      have marks : ∀ mark ∈ last :: finished, mark.Readable :=
        List.forall_mem_cons.mpr ⟨isLast, listed⟩
      simp only [Place.step] at stepped
      split at stepped <;> cases stepped
      · exact ⟨opened, marks⟩
      · refine ⟨opened.opening, List.cons_ne_nil _ _, opened.block _ marks, ?_⟩
        intro other alone
        obtain rfl := (List.cons.inj alone).1
        exact List.reverse_ne_nil_iff.mpr (List.cons_ne_nil _ _)

theorem staysReadable_stateEnd {entries : List StateEntry} :
    (stateEnd opening entries).StaysReadable := by
  intro token next readable admits stepped
  have spelled := admits.spelled
  rcases readable with ⟨opened, nonempty, block, marked⟩
  apply nextEntry_readable opened nonempty block spelled _ stepped
  intro entry alone unmarked
  exact absurd unmarked (marked entry alone)

/-! ### Rules -/

theorem staysReadable_ruleSource {rules : List (Rule Name)} :
    (ruleSource opening rules).StaysReadable := by
  intro token next readable admits stepped
  have spelled := admits.spelled
  simp only [Place.step] at stepped
  split at stepped <;> cases stepped
  rename_i isName
  exact ⟨readable.1, readable.2, spelled.toName isName⟩

theorem staysReadable_ruleTarget {rules : List (Rule Name)} {source : Name} :
    (ruleTarget opening rules source).StaysReadable := by
  intro token next readable admits stepped
  have spelled := admits.spelled
  simp only [Place.step] at stepped
  split at stepped <;> cases stepped
  rename_i isName
  exact ⟨readable.1, readable.2.1, readable.2.2, spelled.toName isName⟩

theorem staysReadable_ruleAssign {rules : List (Rule Name)} {source target : Name} :
    (ruleAssign opening rules source target).StaysReadable := by
  intro token next readable admits stepped
  rcases readable with ⟨opened, earlier, isSource, isTarget⟩
  simp only [Place.step] at stepped
  split at stepped <;> cases stepped
  exact ⟨opened, earlier, isSource, isTarget, ⟨by simp, by simp⟩, by simp⟩

/-! ### Conditions -/

theorem staysReadable_operand {rule : OpenRule} : (operand rule).StaysReadable := by
  intro token next readable admits stepped
  simp only [Place.step] at stepped
  split at stepped <;> cases stepped
  · exact { readable with
      level := ⟨readable.level.alternatives, readable.level.conjuncts⟩ }
  · exact { readable with
      level := ⟨by simp, by simp⟩
      outer := List.forall_mem_cons.mpr ⟨readable.level, readable.outer⟩ }
  · exact readable

theorem staysReadable_testOpen {rule : OpenRule} : (testOpen rule).StaysReadable := by
  intro token next readable admits stepped
  have spelled := admits.spelled
  simp only [Place.step] at stepped
  split at stepped <;> cases stepped
  rename_i isName
  exact ⟨readable, spelled.toName isName⟩

theorem staysReadable_testComparison {rule : OpenRule} {name : Name} :
    (testComparison rule name).StaysReadable := by
  intro token next readable admits stepped
  simp only [Place.step] at stepped
  split at stepped
  · rcases Option.map_eq_some_iff.mp stepped with ⟨comparison, _, rfl⟩
    exact readable
  · cases stepped

theorem staysReadable_testBound {rule : OpenRule} {name : Name} {comparison : Comparison} :
    (testBound rule name comparison).StaysReadable := by
  intro token next readable admits stepped
  simp only [Place.step] at stepped
  split at stepped <;> cases stepped
  refine ⟨{ readable.1 with level := ?_ }, List.cons_ne_nil _ _⟩
  exact readable.1.level.operand readable.2

/-! ### All places -/

theorem staysReadable (place : Place) : place.StaysReadable := by
  cases place with
  -- one word or mark fits, and what has been read stays as it was
  | key | sizesOpen | sizeAxis | staticColons | attributeKey | attributeToken
  | ruleTo | test | testState =>
      intro token next readable admits stepped
      simp only [Place.step] at stepped
      split at stepped <;> cases stepped
      exact readable
  | between finished => exact fun _ _ readable admits => keyed_readable readable admits.spelled
  | value => exact staysReadable_value
  | rank => exact staysReadable_rank
  | size => exact staysReadable_size
  | sizeEqual => exact staysReadable_sizeEqual
  | sizeEnd => exact staysReadable_sizeEnd
  | static => exact staysReadable_static
  | staticOpen => exact staysReadable_staticOpen
  | staticState => exact staysReadable_staticState
  | block => exact staysReadable_block
  | firstName => exact staysReadable_firstName
  | offset => exact staysReadable_offset
  | offsetAxis => exact staysReadable_offsetAxis
  | offsetDirection => exact staysReadable_offsetDirection
  | offsetEnd => exact staysReadable_offsetEnd
  | state => exact staysReadable_state
  | stateColons => exact staysReadable_stateColons
  | attributeStart => exact staysReadable_attributeStart
  | attributeOpen => exact staysReadable_attributeOpen
  | attributeEnd => exact staysReadable_attributeEnd
  | stateEnd => exact staysReadable_stateEnd
  | ruleSource => exact staysReadable_ruleSource
  | ruleTarget => exact staysReadable_ruleTarget
  | ruleAssign => exact staysReadable_ruleAssign
  | operand => exact staysReadable_operand
  | testOpen => exact staysReadable_testOpen
  | testComparison => exact staysReadable_testComparison
  | testBound => exact staysReadable_testBound
  | operandEnd rule => exact fun _ _ readable _ => continued_readable readable.1 readable.2

/-- A token that is admitted leads from a readable place to a readable place. -/
theorem Readable.step {place next : Place} {token : Token} (readable : place.Readable)
    (admits : Admits place.wanted token) (stepped : place.step token = some next) :
    next.Readable :=
  place.staysReadable _ _ readable admits stepped

theorem Readable.run {first last : Place} {tokens : List Token} (readable : first.Readable)
    (run : Run first tokens last) : last.Readable := by
  induction run with
  | done => exact readable
  | token admits stepped _ ih => exact ih (readable.step admits stepped)

theorem Readable.finish {place : Place} {program : List Declaration} (readable : place.Readable)
    (finished : place.finish? = some program) :
    ∀ declaration ∈ program, declaration.Readable := by
  intro declaration member
  unfold finish? at finished
  split at finished <;> cases finished
  all_goals rw [List.mem_reverse] at member
  · exact readable declaration member
  all_goals rcases List.mem_cons.mp member with rfl | member
  · exact ⟨readable.1.key, readable.2⟩
  · exact readable.1.earlier declaration member
  · exact ⟨readable.key, trivial⟩
  · exact readable.earlier declaration member

end Place

/-- Programs that are read are readable. -/
theorem readable_of_readProgram {source : String} {program : List Declaration}
    (read : readProgram source = .ok program) : ∀ declaration ∈ program, declaration.Readable := by
  rcases readFrom_eq_ok_iff.mp read with ⟨tokens, reads⟩
  rcases reads.run with ⟨final, run, finished⟩
  have start : (Place.between []).Readable := fun _ member => absurd member List.not_mem_nil
  exact (start.run run).finish finished

end Cellular
