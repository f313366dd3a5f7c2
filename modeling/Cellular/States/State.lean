import Cellular.States.Table
import Cellular.Text.Quoted
import Cellular.Text.Sequence

/-!
# States

A state has a name, the number under which grids store it, and attributes that
mean nothing to the automaton itself. One state may be the default.
-/

namespace Cellular

/-- A state of the cells. -/
structure State where
  name : String
  index : Int
  isDefault : Bool := false
  attributes : Table String String := Table.empty

namespace State

/-- The token of the attribute that says how the state is drawn. -/
def color? (state : State) : Option String :=
  state.attributes.get? "color"

/-- Whether two states agree. The order of attributes does not matter. -/
def same (first second : State) : Bool :=
  first.name == second.name && first.index == second.index &&
    first.isDefault == second.isDefault && first.attributes.same second.attributes

/-- The state as a constructed value. -/
def construction (state : State) : String :=
  "State(" ++ state.name ++ ", " ++ toString state.index ++ ", default=" ++
    Text.truth state.isDefault ++ ", attributes=" ++
    Text.braced (state.attributes.entries.map fun (key, token) =>
      (Text.quoted key, Text.quoted token)) ++ ")"

/-- The state with its attributes in one line. -/
def description (state : State) : String :=
  let listed := state.attributes.entries.map fun (key, token) => key ++ "(" ++ token ++ ")"
  "State " ++ toString state.index ++ " (" ++ state.name ++ "): " ++
    if listed.isEmpty then "no attributes" else ", ".intercalate listed

end State

end Cellular
