import Cellular.Condition.Evaluation
import Cellular.Validation.Basic

/-!
# Compiled programs

A compiled program sorts the rules by the state they start from. The clauses of a
state are tried in the order of the source, and the first whose condition holds
gives the next state. A state without rules has the one clause that always keeps it.
-/

namespace Cellular

/-- A condition, and the state it leads to where it holds. -/
structure Clause where
  condition : Condition (CountTest Nat)
  target : Nat
deriving DecidableEq

/-- A program that is ready to run: the clauses are listed by state. -/
structure Program where
  rank : Nat
  sizes : List (Option Nat)
  offsets : List Vec
  boundary : Boundary Nat
  registry : Registry
  clauses : List (List Clause)
  warnings : List Warning

/-- The clauses of one state. -/
def clausesOf (rules : List (Rule Nat)) (state : Nat) : List Clause :=
  match rules.filter fun rule => rule.source == state with
  | [] => [⟨.always, state⟩]
  | own => own.map fun rule => ⟨rule.condition, rule.target⟩

/-- Compiles a validated program. -/
def Validated.compile (program : Validated) : Program where
  rank := program.rank
  sizes := program.sizes
  offsets := program.offsets
  boundary := program.boundary
  registry := program.registry
  clauses := (List.range program.registry.states.length).map (clausesOf program.rules)
  warnings := program.warnings

/-- The target of the first clause whose condition holds. -/
def firstTarget (counts : Nat → Int) : List Clause → Except (EvaluationFault Nat) (Option Nat)
  | [] => .ok none
  | clause :: rest =>
    match (clause.condition.verdict fun state => some (counts state)).result with
    | .ok true => .ok (some clause.target)
    | .ok false => firstTarget counts rest
    | .error fault => .error fault

/-- Why a state has no next state. -/
inductive TransitionFault where
  | noSuchState
  | evaluation (fault : EvaluationFault Nat)

namespace Program

/-- The states whose counts some clause may read, as a sorted set. -/
def census (program : Program) : List Nat :=
  sortedSet Nat.ble (program.clauses.flatten.flatMap fun clause =>
    clause.condition.tests.map CountTest.state)

/-- The next state of a cell in the given state, by its neighbour counts. -/
def transition (program : Program) (state : Int) (counts : Nat → Int) :
    Except TransitionFault Int :=
  match state.toNat?.bind fun index => program.clauses[index]? with
  | none => .error .noSuchState
  | some clauses => match firstTarget counts clauses with
    | .ok target => .ok ((target.map Int.ofNat).getD state)
    | .error fault => .error (.evaluation fault)

end Program

end Cellular
