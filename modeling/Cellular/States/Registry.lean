import Cellular.States.State
import Cellular.Text.Scalar

/-!
# Registries of states

The states of a program in the order of their declaration. Every state is numbered
by its place, and at most one of them is the default. States are looked up by name
or by number; a negative number counts from the end. Of two states of one name the
later one is found.
-/

namespace Cellular

/-- Why a lookup has no answer. -/
inductive LookupFault where
  | noSuchKey
  | noSuchIndex
deriving DecidableEq, Repr

/-- The states of a program, numbered by their places. -/
structure Registry where
  states : List State
  index_eq : states.map State.index = (List.range states.length).map Int.ofNat
  default_unique : (states.filter State.isDefault).length ≤ 1

namespace Registry

/-- The registry without states. -/
def empty : Registry := ⟨[], rfl, Nat.zero_le 1⟩

/-- The registry of the given states, if they are numbered by their places and at
most one is the default. -/
def ofStates? (states : List State) : Option Registry :=
  if numbered : states.map State.index = (List.range states.length).map Int.ofNat then
    if unique : (states.filter State.isDefault).length ≤ 1 then
      some ⟨states, numbered, unique⟩
    else none
  else none

/-- The default state. -/
def default? (registry : Registry) : Option State :=
  registry.states.find? State.isDefault

/-- The registry with one more state. It becomes the default if it asks for it and
there is no default yet. -/
def add (registry : Registry) (name : String) (asDefault : Bool)
    (attributes : Table String String) : Registry where
  states := registry.states ++
    [⟨name, registry.states.length, asDefault && registry.default?.isNone, attributes⟩]
  index_eq := by simp [registry.index_eq, List.range_succ]
  default_unique := by
    have unique := registry.default_unique
    cases free : registry.default? with
    | some state => simpa [free] using unique
    | none =>
      have none_default : registry.states.filter State.isDefault = [] := by
        simpa [default?, List.find?_eq_none, List.filter_eq_nil_iff] using free
      cases asDefault <;> simp [none_default]

/-! ## Lookups -/

/-- The names of the states. -/
def names (registry : Registry) : List String :=
  registry.states.map State.name

/-- The state with the given name. -/
def find? (registry : Registry) (name : String) : Option State :=
  registry.states.reverse.find? fun state => state.name == name

/-- The number of the state with the given name. -/
def indexOf? (registry : Registry) (name : String) : Option Nat :=
  (registry.find? name).map fun state => state.index.toNat

/-- Whether a state of the given name is declared. -/
def declares (registry : Registry) (name : String) : Bool :=
  (registry.find? name).isSome

/-- The state with the given number, negative numbers counting from the end. -/
def at? (registry : Registry) (index : Int) : Option State :=
  let place := if index < 0 then index + registry.states.length else index
  if place < 0 then none else registry.states[place.toNat]?

/-- The name of the state with the given number. -/
def nameOf (registry : Registry) (index : Nat) : String :=
  ((registry.at? index).map State.name).getD ""

/-- The number of the state with the given name, or the fault of the lookup. -/
def index (registry : Registry) (name : String) : Except LookupFault Nat :=
  match registry.indexOf? name with
  | some index => .ok index
  | none => .error .noSuchKey

/-- The state under a key: a whole number is a number, and anything else a name. -/
def get (registry : Registry) : Scalar → Except LookupFault State
  | .whole index => match registry.at? index with
    | some state => .ok state
    | none => .error .noSuchIndex
  | .word name => match registry.find? name with
    | some state => .ok state
    | none => .error .noSuchKey
  | _ => .error .noSuchKey

/-- Whether the key is the name of a state. -/
def contains (registry : Registry) : Scalar → Bool
  | .word name => registry.declares name
  | _ => false

/-- The colours of the states that have one, by name. -/
def colors (registry : Registry) : Table String String :=
  Table.ofList (registry.states.filterMap fun state =>
    state.color?.map fun color => (state.name, color))

/-! ## Texts -/

/-- Whether two registries have the same states. -/
def same (first second : Registry) : Bool :=
  first.states.length == second.states.length &&
    (first.states.zip second.states).all fun pair => pair.1.same pair.2

/-- The names as a quoted list. -/
def nameList (registry : Registry) : String :=
  Text.bracketed (registry.names.map Text.quoted)

/-- The registry as a constructed value. -/
def construction (registry : Registry) : String :=
  "StateRegistry(" ++ registry.nameList ++ ")"

/-- The registry in sentences, at will with a line for each state. -/
def description (registry : Registry) (verbose : Bool) : List String :=
  let count := toString registry.states.length ++ " states: " ++
    ", ".intercalate registry.names
  let default := match registry.default? with
    | some state => "Default state: " ++ state.name
    | none => "No default state"
  count :: default :: if verbose then registry.states.map State.description else []

end Registry

end Cellular
