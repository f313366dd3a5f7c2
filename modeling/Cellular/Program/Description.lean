import Cellular.Condition.Listing
import Cellular.Program.Basic

/-!
# Describing programs

A program is described in sentences: its rank, its declared size if that is complete,
its neighbourhood and boundary, its states, and the number of its rules. At will the
offsets and the rules follow, the rules sorted by the state they start from.
-/

namespace Cellular

/-- Numbers with crosses between them: `3 x 4`. -/
def crossed (sizes : List Nat) : String :=
  " x ".intercalate (sizes.map toString)

/-- A vector between round brackets. -/
def Vec.tupleText (v : Vec) : String :=
  Text.tuple (v.map toString)

namespace Program

/-- The clauses that stand for rules, with the states they start from. -/
def ruleClauses (program : Program) : List (Nat × Clause) :=
  (program.clauses.zipIdx.flatMap fun (clauses, state) =>
    clauses.map fun clause => (state, clause)).filter fun (_, clause) =>
      clause.condition != .always

/-- The line of one clause, by the names of its states. -/
def clauseLine (program : Program) (state : Nat) (clause : Clause) :
    Except TreeFault String := do
  let named (test : CountTest Nat) : Except TreeFault String :=
    .ok (CountTest.text { test with state := program.registry.nameOf test.state })
  return "from " ++ program.registry.nameOf state ++ " to " ++
    program.registry.nameOf clause.target ++ " := " ++ (← clause.condition.listing named)

/-- The program in sentences. -/
def description (program : Program) (name : Option String) (verbose : Bool) :
    Except TreeFault String := do
  let title := toString program.rank ++ "-dimensional Loaf program" ++
    match name with
    | some name => " " ++ name
    | none => ""
  let size := match program.sizes.mapM id with
    | some sizes => ["Declared size: " ++ crossed sizes]
    | none => []
  let space := "Neighborhood of " ++ toString program.offsets.length ++ " cells, " ++
    program.boundary.description
  let rules := toString program.ruleClauses.length ++ " rules"
  let details ← if verbose then do
      let lines ← program.ruleClauses.mapM fun (state, clause) => program.clauseLine state clause
      pure (("Offsets: " ++ Text.bracketed (program.offsets.map Vec.tupleText)) :: lines)
    else pure []
  return "\n".intercalate ([title] ++ size ++ [space] ++ program.registry.description verbose ++
    [rules] ++ details)

/-- The program as a constructed value. -/
def construction (program : Program) : Except TreeFault String := do
  let pairs (clauses : List Clause) : Except TreeFault String := do
    return Text.tuple (← clauses.mapM fun clause => do
      let predicate ← clause.condition.construction fun test => .ok test.text
      return Text.tuple [predicate, toString clause.target])
  let rules ← program.clauses.zipIdx.mapM fun (clauses, state) => do
    return (toString state, ← pairs clauses)
  return "Program(rank=" ++ toString program.rank ++ ", states=" ++ program.registry.nameList ++
    ", rules=" ++ Text.braced rules ++ ")"

end Program

end Cellular
