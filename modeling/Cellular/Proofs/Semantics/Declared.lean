import Cellular.Proofs.Condition.Truth
import Cellular.Proofs.Space.Offsets
import Cellular.Proofs.Validation.Accepted
import Cellular.Proofs.Validation.States
import Cellular.Proofs.Validation.Rules
import Mathlib.Data.Set.Card

/-!
# What the declarations say

The parts of a program say by themselves how a grid evolves. A cell counts the names of
states at the vectors that the neighbourhood describes, looking beyond the edge as the
boundary says. The first rule that starts from the name of the cell and whose condition
holds for these counts gives the next name, and without such a rule the name stays.

Nothing here is computed: the vectors are a set, and a condition is a proposition.
-/

namespace Cellular

/-! ## The rules -/

/-- A rule applies to a cell by its name and by the counts around it. -/
def Rule.Applies (counts : String → Int) (name : String) (rule : Rule Name) : Prop :=
  rule.source.text = name ∧ rule.condition.Holds (CountTest.Holds fun state => counts state.text)

open Classical in
/-- The name that follows by the first rule that applies. -/
noncomputable def nameAfter (counts : String → Int) (name : String) : List (Rule Name) → String
  | [] => name
  | rule :: rules =>
    if rule.Applies counts name then rule.target.text else nameAfter counts name rules

namespace Parts

/-! ## Around a cell -/

/-- The name of the default state. -/
def default? (parts : Parts) : Option String :=
  (parts.entries.find? StateEntry.marked).map (·.name.text)

/-- The name that is seen at a position on the grid or beyond its edge, if anything is
there. -/
def seen (parts : Parts) (shape : List Nat) (names : Vec → String) (position : Vec) :
    Option String :=
  if isCell position shape then some (names position)
  else match parts.edge with
    | .void => none
    | .wrap => some (names (List.zipWith (fun c (n : Nat) => c % n) position shape))
    | .static (some state) => some state.text
    | .static none => parts.default?

/-- The number of vectors of the neighbourhood at which a cell sees a name. -/
noncomputable def count (parts : Parts) (shape : List Nat) (names : Vec → String) (cell : Vec)
    (name : String) : Int :=
  Set.ncard {offset | parts.shape.Describes parts.space.rank offset ∧
    parts.seen shape names (Vec.add cell offset) = some name}

/-! ## Generations -/

/-- The name that a cell has next. -/
noncomputable def next (parts : Parts) (shape : List Nat) (names : Vec → String) (cell : Vec) :
    String :=
  nameAfter (parts.count shape names cell) (names cell) parts.rules

/-- The name that a cell is given at first: the one it is mentioned with, or that of the
default state. -/
def first? (parts : Parts) (initial : Option (Table Vec String)) (cell : Vec) : Option String :=
  (initial.bind (·.get? cell)).or parts.default?

/-- The names of all cells after some generations. -/
noncomputable def generation (parts : Parts) (shape : List Nat)
    (initial : Option (Table Vec String)) : Nat → Vec → String
  | 0, cell => (parts.first? initial cell).getD ""
  | i + 1, cell => parts.next shape (parts.generation shape initial i) cell

end Parts

end Cellular
