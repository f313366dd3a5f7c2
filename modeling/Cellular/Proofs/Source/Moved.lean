import Cellular.Proofs.Condition.Renamed
import Cellular.Source.Place

/-!
# Programs with other names

All names of a program can be exchanged for others, and other declarations can be put before
it. Nothing that the reader does depends on either: with exchanged names and with further
declarations before, a place looks for the same terminals, and a token whose name is exchanged
in the same way leads to the same place with exchanged names.
-/

namespace Cellular

/-! ## Programs -/

/-- The rule with another name for its axis. -/
def OffsetRule.map (f : Name → Name) (rule : OffsetRule) : OffsetRule :=
  { rule with axis := f rule.axis }

/-- The neighbourhood with other names for all axes. -/
def Neighborhood.map (f : Name → Name) : Neighborhood → Neighborhood
  | moore => .moore
  | vonNeumann => .vonNeumann
  | custom rules => .custom (rules.map (OffsetRule.map f))

/-- Sizes with other names for their axes. -/
def sizesMap (f : Name → Name) (sizes : List (Name × Int)) : List (Name × Int) :=
  sizes.map fun (axis, size) => (f axis, size)

/-- The environment with other names for all axes. -/
def Environment.map (f : Name → Name) (space : Environment) : Environment :=
  { space with sizes := sizesMap f space.sizes }

/-- The boundary with another name for its state. -/
def Boundary.map {σ τ : Type} (f : σ → τ) : Boundary σ → Boundary τ
  | void => .void
  | wrap => .wrap
  | static state => .static (f state)

/-- The attribute with other names for its key and its token. -/
def Attribute.map (f : Name → Name) : Attribute → Attribute
  | defaultMark => .defaultMark
  | keyed key token => .keyed (f key) (f token)

/-- The state with another name, and with other names in its attributes. -/
def StateEntry.map (f : Name → Name) (entry : StateEntry) : StateEntry :=
  ⟨f entry.name, entry.attributes.map (Attribute.map f)⟩

/-- The rule with other names for all states. -/
def Rule.map {σ τ : Type} (f : σ → τ) (rule : Rule σ) : Rule τ :=
  ⟨f rule.source, f rule.target, rule.condition.map (CountTest.map f)⟩

/-- The value with other names. -/
def Value.map (f : Name → Name) : Value → Value
  | environment space => .environment (space.map f)
  | neighborhood shape => .neighborhood (shape.map f)
  | boundary edge => .boundary (edge.map (Option.map f))
  | states block => .states (block.map (StateEntry.map f))
  | rules block => .rules (block.map (Rule.map f))

/-- A declaration with other names. -/
def Declaration.map (f : Name → Name) (declaration : Declaration) : Declaration :=
  ⟨f declaration.key, declaration.value.map f⟩

/-! ### Exchanging twice -/

section Twice

variable (g f : Name → Name)

theorem Neighborhood.map_map (shape : Neighborhood) : (shape.map f).map g = shape.map (g ∘ f) := by
  cases shape with
  | custom rules => exact congrArg custom (List.map_map ..)
  | _ => rfl

theorem Environment.map_map (space : Environment) : (space.map f).map g = space.map (g ∘ f) :=
  congrArg (Environment.mk space.rank) (List.map_map ..)

theorem Boundary.map_map {σ τ υ : Type} (g : τ → υ) (f : σ → τ) (edge : Boundary σ) :
    (edge.map f).map g = edge.map (g ∘ f) := by
  cases edge <;> rfl

theorem Attribute.map_map (mark : Attribute) : (mark.map f).map g = mark.map (g ∘ f) := by
  cases mark <;> rfl

theorem StateEntry.map_map (entry : StateEntry) : (entry.map f).map g = entry.map (g ∘ f) := by
  simp only [map, List.map_map, Function.comp_def, Attribute.map_map]

theorem Rule.map_map {σ τ υ : Type} (g : τ → υ) (f : σ → τ) (rule : Rule σ) :
    (rule.map f).map g = rule.map (g ∘ f) :=
  congrArg (Rule.mk _ _) (Condition.map_map ..)

theorem Value.map_map (value : Value) : (value.map f).map g = value.map (g ∘ f) := by
  cases value with
  | environment space => exact congrArg environment (space.map_map g f)
  | neighborhood shape => exact congrArg neighborhood (shape.map_map g f)
  | boundary edge =>
      refine congrArg boundary ((edge.map_map ..).trans ?_)
      rw [Option.map_comp_map]
  | states block =>
      simp only [map, List.map_map, Function.comp_def, StateEntry.map_map]
  | rules block =>
      simp only [map, List.map_map, Function.comp_def, Rule.map_map]

theorem Declaration.map_map (declaration : Declaration) :
    (declaration.map f).map g = declaration.map (g ∘ f) :=
  congrArg (Declaration.mk _) (declaration.value.map_map g f)

end Twice

/-! ## Unfinished programs -/

section Carried

variable (f : Name → Name) (before : List Declaration)

/-- The level with other names in its conditions. -/
def Level.map (level : Level) : Level :=
  ⟨level.alternatives.map (Condition.map (CountTest.map f)),
    level.conjuncts.map (Condition.map (CountTest.map f)), level.negations⟩

/-- Declarations are kept latest first, so that those before are appended. -/
def Opening.carried (opening : Opening) : Opening :=
  ⟨opening.earlier.map (Declaration.map f) ++ before, f opening.key⟩

/-- The open state with other names, and with declarations before its own. -/
def OpenState.carried (entry : OpenState) : OpenState :=
  ⟨entry.opening.carried f before, entry.earlier.map (StateEntry.map f), f entry.name⟩

/-- The attributes so far with other names. -/
def AttributeList.map : AttributeList → AttributeList
  | alone => .alone
  | grouped finished => .grouped (finished.map (Attribute.map f))

/-- The open rule with other names, and with declarations before its own. -/
def OpenRule.carried (rule : OpenRule) : OpenRule :=
  ⟨rule.opening.carried f before, rule.earlier.map (Rule.map f), f rule.source, f rule.target,
    rule.level.map f, rule.outer.map (Level.map f)⟩

namespace Place

/-- The same place with other names and with further declarations before. -/
def carried : Place → Place
  | between finished => .between (finished.map (Declaration.map f) ++ before)
  | key opening => .key (opening.carried f before)
  | value opening => .value (opening.carried f before)
  | rank opening r => .rank (opening.carried f before) r
  | sizesOpen opening r => .sizesOpen (opening.carried f before) r
  | size opening r sizes => .size (opening.carried f before) r (sizesMap f sizes)
  | sizeAxis opening r sizes axis =>
    .sizeAxis (opening.carried f before) r (sizesMap f sizes) (f axis)
  | sizeEqual opening r sizes axis =>
    .sizeEqual (opening.carried f before) r (sizesMap f sizes) (f axis)
  | sizeEnd opening r sizes => .sizeEnd (opening.carried f before) r (sizesMap f sizes)
  | static opening => .static (opening.carried f before)
  | staticColons opening => .staticColons (opening.carried f before)
  | staticOpen opening => .staticOpen (opening.carried f before)
  | staticState opening name => .staticState (opening.carried f before) (f name)
  | block opening => .block (opening.carried f before)
  | firstName opening name => .firstName (opening.carried f before) (f name)
  | offset opening rules => .offset (opening.carried f before) (rules.map (OffsetRule.map f))
  | offsetAxis opening rules axis =>
    .offsetAxis (opening.carried f before) (rules.map (OffsetRule.map f)) (f axis)
  | offsetDirection opening rules axis direction =>
    .offsetDirection (opening.carried f before) (rules.map (OffsetRule.map f)) (f axis) direction
  | offsetEnd opening rules =>
    .offsetEnd (opening.carried f before) (rules.map (OffsetRule.map f))
  | state entry => .state (entry.carried f before)
  | stateColons entry => .stateColons (entry.carried f before)
  | attributeStart entry finished =>
    .attributeStart (entry.carried f before) (finished.map (Attribute.map f))
  | attributeKey entry list name =>
    .attributeKey (entry.carried f before) (list.map f) (f name)
  | attributeOpen entry list name =>
    .attributeOpen (entry.carried f before) (list.map f) (f name)
  | attributeToken entry list name word =>
    .attributeToken (entry.carried f before) (list.map f) (f name) (f word)
  | attributeEnd entry list last =>
    .attributeEnd (entry.carried f before) (list.map f) (last.map f)
  | stateEnd opening entries =>
    .stateEnd (opening.carried f before) (entries.map (StateEntry.map f))
  | ruleSource opening rules => .ruleSource (opening.carried f before) (rules.map (Rule.map f))
  | ruleTo opening rules source =>
    .ruleTo (opening.carried f before) (rules.map (Rule.map f)) (f source)
  | ruleTarget opening rules source =>
    .ruleTarget (opening.carried f before) (rules.map (Rule.map f)) (f source)
  | ruleAssign opening rules source target =>
    .ruleAssign (opening.carried f before) (rules.map (Rule.map f)) (f source) (f target)
  | operand rule => .operand (rule.carried f before)
  | test rule => .test (rule.carried f before)
  | testOpen rule => .testOpen (rule.carried f before)
  | testState rule name => .testState (rule.carried f before) (f name)
  | testComparison rule name => .testComparison (rule.carried f before) (f name)
  | testBound rule name comparison => .testBound (rule.carried f before) (f name) comparison
  | operandEnd rule => .operandEnd (rule.carried f before)

theorem wanted_carried (place : Place) : (place.carried f before).wanted = place.wanted := by
  cases place <;> rfl

theorem finish?_carried (place : Place) :
    (place.carried f before).finish? =
      place.finish?.map fun program => before.reverse ++ program.map (Declaration.map f) := by
  cases place
  case between | rank | static =>
    simp [carried, finish?, Opening.carried, Declaration.map, Value.map, Environment.map, sizesMap,
      Boundary.map]
  all_goals rfl

end Place

/-! ## Conditions -/

section Joined

variable (g : CountTest Name → CountTest Name)

theorem joined_map {node : List (Condition (CountTest Name)) → Condition (CountTest Name)}
    (moved : ∀ cs, (node cs).map g = node (cs.map (Condition.map g)))
    (operands : List (Condition (CountTest Name))) :
    joined node (operands.map (Condition.map g)) = (joined node operands).map g := by
  rcases operands with _ | ⟨first, _ | ⟨second, rest⟩⟩
  · exact (moved []).symm
  · rfl
  · have whole := moved (first :: second :: rest).reverse
    rw [List.map_reverse] at whole
    exact whole.symm

theorem negated_map (n : Nat) (c : Condition (CountTest Name)) :
    negated n (c.map g) = (negated n c).map g := by
  induction n with
  | zero => rfl
  | succ n ih => rw [negated, ih, negated, Condition.map]

theorem Condition.map_all (cs : List (Condition (CountTest Name))) :
    (Condition.all cs).map g = .all (cs.map (Condition.map g)) := by
  rw [Condition.map, Condition.mapList_eq]

theorem Condition.map_any (cs : List (Condition (CountTest Name))) :
    (Condition.any cs).map g = .any (cs.map (Condition.map g)) := by
  rw [Condition.map, Condition.mapList_eq]

end Joined

namespace Level

theorem operand_map (level : Level) (c : Condition (CountTest Name)) :
    (level.map f).operand (c.map (CountTest.map f)) = (level.operand c).map f := by
  simp [operand, map, negated_map]

theorem alternative_map (level : Level) :
    (level.map f).alternative = level.alternative.map f := by
  simp [alternative, map, joined_map _ (Condition.map_all _)]

theorem close_map (level : Level) :
    (level.map f).close = level.close.map (CountTest.map f) := by
  rw [close, close, ← joined_map _ (Condition.map_any _), List.map_cons,
    ← joined_map _ (Condition.map_all _)]
  rfl

end Level

/-! ## Steps -/

/-- A token of the same terminal and the same text, with the name that the other has after the
exchange. -/
structure Token.Carried (token other : Token) : Prop where
  terminal : other.terminal = token.terminal
  text : other.text = token.text
  name : other.toName = f token.toName

section Steps

variable {f before} {token other : Token}

theorem Token.Carried.toInt (same : token.Carried f other) : other.toInt = token.toInt := by
  rw [Token.toInt, Token.toInt, same.text]

theorem Token.Carried.toRank (same : token.Carried f other) : other.toRank = token.toRank := by
  rw [Token.toRank, Token.toRank, same.text]

namespace Place

theorem keyed_carried (same : token.Carried f other) (earlier : List Declaration) :
    keyed (earlier.map (Declaration.map f) ++ before) other =
      (keyed earlier token).map (carried f before) := by
  simp only [keyed, same.terminal, same.name]
  split <;> rfl

theorem directed_carried (same : token.Carried f other) (opening : Opening)
    (rules : List OffsetRule) (axis : Name) :
    directed (opening.carried f before) (rules.map (OffsetRule.map f)) (f axis) other =
      (directed opening rules axis token).map (carried f before) := by
  simp only [directed, same.terminal]
  split <;> rfl

theorem nextEntry_carried (same : token.Carried f other) (opening : Opening)
    (entries : List StateEntry) :
    nextEntry (opening.carried f before) (entries.map (StateEntry.map f)) other =
      (nextEntry opening entries token).map (carried f before) := by
  simp only [nextEntry, same.terminal, same.name]
  split
  · rfl
  · rw [← List.map_reverse]
    rfl
  · rfl

theorem entered_carried (entry : OpenState) (attributes : List Attribute) :
    entered (entry.carried f before) (attributes.map (Attribute.map f)) =
      (entered entry attributes).map (StateEntry.map f) := by
  rw [entered, ← List.map_reverse]
  rfl

theorem marked_carried (same : token.Carried f other) (entry : OpenState) (list : AttributeList) :
    marked (entry.carried f before) (list.map f) other =
      (marked entry list token).map (carried f before) := by
  simp only [marked, same.terminal, same.name]
  split <;> rfl

theorem continued_carried (same : token.Carried f other) (rule : OpenRule) :
    continued (rule.carried f before) other = (continued rule token).map (carried f before) := by
  rcases rule with ⟨opening, earlier, source, target, level, outer⟩
  have finished : (⟨source, target, level.close⟩ : Rule Name).map f =
      ⟨f source, f target, (level.map f).close⟩ := by
    rw [Level.close_map]
    rfl
  have terminal := same.terminal
  rcases token with ⟨kind, text, position⟩
  cases kind with
  | keyword k =>
      cases outer with
      | nil =>
          cases k
          case fromWord =>
            simp only [continued, OpenRule.carried, terminal, List.map_nil, ← finished]
            rfl
          all_goals
            simp only [continued, terminal]
            rfl
      | cons first outer =>
          cases k <;>
          · simp only [continued, OpenRule.carried, terminal]
            rfl
  | mark m =>
      cases m
      case bar =>
        simp only [continued, OpenRule.carried, terminal, Level.alternative_map]
        cases outer <;> rfl
      case closeParen =>
        cases outer with
        | nil =>
            simp only [continued, terminal]
            rfl
        | cons first outer =>
            simp only [continued, OpenRule.carried, terminal, List.map_cons,
              Level.close_map, Level.operand_map]
            rfl
      case closeBrace =>
        cases outer with
        | nil =>
            simp only [continued, OpenRule.carried, terminal, List.map_nil, ← finished,
              ← List.map_cons, ← List.map_reverse]
            rfl
        | cons first outer =>
            simp only [continued, OpenRule.carried, terminal]
            rfl
      all_goals
        simp only [continued, OpenRule.carried, terminal]
        cases outer <;> rfl
  | _ =>
      simp only [continued, OpenRule.carried, terminal]
      cases outer <;> rfl

theorem step_carried (same : token.Carried f other) (place : Place) :
    (place.carried f before).step other = (place.step token).map (carried f before) := by
  cases place with
  | between finished => exact keyed_carried same finished
  | rank opening r =>
      simp only [step, carried, same.terminal]
      split
      · rfl
      · exact keyed_carried same (⟨opening.key, .environment ⟨r, []⟩⟩ :: opening.earlier)
  | static opening =>
      simp only [step, carried, same.terminal]
      split
      · rfl
      · exact keyed_carried same (⟨opening.key, .boundary (.static none)⟩ :: opening.earlier)
  | sizeEnd opening r sizes =>
      simp only [step, carried, same.terminal, sizesMap, ← List.map_reverse]
      split <;> rfl
  | firstName opening name =>
      simp only [step, carried, same.terminal]
      split
      · rfl
      · exact nextEntry_carried same opening [⟨name, []⟩]
      · exact nextEntry_carried same opening [⟨name, []⟩]
      · exact directed_carried same opening [] name
  | offsetAxis opening rules axis => exact directed_carried same opening rules axis
  | offsetEnd opening rules =>
      simp only [step, carried, same.terminal, same.name, ← List.map_reverse]
      split <;> rfl
  | state entry =>
      simp only [step, carried, same.terminal]
      split
      · rfl
      · rw [← List.map_nil, entered_carried]
        exact nextEntry_carried same entry.opening (entered entry [])
  | stateColons entry =>
      simp only [step, carried, same.terminal]
      split
      · rfl
      · exact marked_carried same entry .alone
  | attributeStart entry finished => exact marked_carried same entry (.grouped finished)
  | attributeEnd entry list last =>
      cases list with
      | alone =>
          have named : entered (entry.carried f before) [last.map f] =
              (entered entry [last]).map (StateEntry.map f) := entered_carried entry [last]
          simp only [step, carried, AttributeList.map, named]
          exact nextEntry_carried same entry.opening (entered entry [last])
      | grouped finished =>
          have named : entered (entry.carried f before) ((last :: finished).map (Attribute.map f)) =
              (entered entry (last :: finished)).map (StateEntry.map f) := entered_carried ..
          simp only [step, carried, same.terminal, AttributeList.map]
          split
          · rfl
          · rw [← List.map_cons, named]
            rfl
          · rfl
  | stateEnd opening entries => exact nextEntry_carried same opening entries
  | testComparison rule name =>
      simp only [step, carried, same.terminal, same.text]
      split
      · cases Comparison.ofSymbol? token.text <;> rfl
      · rfl
  | testBound rule name comparison =>
      simp only [step, carried, same.terminal, same.toInt]
      split
      · have moved := rule.level.operand_map f (.test ⟨comparison, name, token.toInt⟩)
        simp only [Option.map_some, carried, OpenRule.carried, ← moved]
        rfl
      · rfl
  | operandEnd rule => exact continued_carried same rule
  | _ =>
      simp only [step, carried, same.terminal, same.name, same.toInt, same.toRank]
      split <;> rfl

end Place

end Steps

end Carried

end Cellular
