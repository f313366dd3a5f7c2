import Cellular.Tree.Validation

/-!
# Programs as trees

Whatever was read or validated can be handed on as a tree. The tree has a node for every
value, tagged as the reading of trees expects it, and the parts of a node stand in the
order in which they are written. How a name or a number stands for a state is left open
where programs differ in it.
-/

namespace Cellular

variable {σ : Type}

/-- A test as a tree. -/
def CountTest.tree (state : σ → Tree) (test : CountTest σ) : Tree :=
  .node [.word "COMPARE", .word test.comparison.symbol, state test.state, .whole test.bound]

/-- A condition as a tree. -/
def Condition.tree (state : σ → Tree) (c : Condition (CountTest σ)) : Tree :=
  .ofCondition (CountTest.tree state) c

/-- A rule as a tree. -/
def Rule.tree (state : σ → Tree) (rule : Rule σ) : Tree :=
  .node [.word "RULE", state rule.source, state rule.target, rule.condition.tree state]

/-- A boundary as a tree. -/
def Boundary.tree (state : σ → Tree) : Boundary σ → Tree
  | void => .node [.word "VOID"]
  | wrap => .node [.word "WRAP"]
  | static fill => .node [.word "STATIC", state fill]

/-! ## Source programs -/

section Source

variable (name : Name → Tree)

/-- An environment as a tree. -/
def Environment.tree (space : Environment) : Tree :=
  .node [.word "ENVIRONMENT", .whole space.rank,
    .node (space.sizes.map fun (axis, size) => .node [name axis, .whole size])]

/-- An offset rule as a tree. -/
def OffsetRule.tree (rule : OffsetRule) : Tree :=
  .node [name rule.axis, .word rule.direction.symbol, .whole rule.magnitude]

/-- A neighbourhood as a tree. -/
def Neighborhood.tree : Neighborhood → Tree
  | moore => .node [.word "MOORE"]
  | vonNeumann => .node [.word "VON_NEUMANN"]
  | custom rules => .node (.word "CUSTOM" :: rules.map (OffsetRule.tree name))

/-- An attribute as a tree. -/
def Attribute.tree : Attribute → Tree
  | defaultMark => .node [.word defaultText]
  | keyed key token => .node [name key, name token]

/-- An entry of a block of states as a tree. -/
def StateEntry.tree (entry : StateEntry) : Tree :=
  .node [name entry.name, .node (entry.attributes.map (Attribute.tree name))]

/-- A value as a tree. -/
def Value.tree : Value → Tree
  | environment space => space.tree name
  | neighborhood shape => shape.tree name
  | boundary edge => edge.tree fun state => (state.map name).getD .missing
  | states block => .node (.word "STATES" :: block.map (StateEntry.tree name))
  | rules block => .node (.word "RULES" :: block.map (Rule.tree name))

/-- A declaration as a tree. -/
def Declaration.tree (declaration : Declaration) : Tree :=
  .node [.word "ASSIGN", name declaration.key, declaration.value.tree name]

/-- A source program as a tree. -/
def programTree (program : List Declaration) : Tree :=
  .node (program.map (Declaration.tree name))

end Source

/-! ## Validated programs -/

/-- The number of a state as a tree. -/
def numberTree (index : Nat) : Tree :=
  .whole index

/-- A validated program as a checked tree. -/
def Validated.tree (program : Validated) : CheckedTree where
  rank := .whole program.rank
  sizes := program.sizes.map fun size => (size.map numberTree).getD .missing
  offsets := program.offsets.map Tree.ofVec
  boundary := program.boundary.tree numberTree
  registry := program.registry
  rules := program.rules.map (Rule.tree numberTree)
  warnings := program.warnings

end Cellular
