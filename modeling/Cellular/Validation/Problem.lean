import Cellular.Source.Declaration

/-!
# What can be wrong with a program

Each way in which a program can fail to make sense is a cause of its own, with the
names that take part in it. Its report and its place are read off the cause.
-/

namespace Cellular

/-- The keys that a program may declare. -/
inductive Key where
  | environment
  | neighborhood
  | states
  | rules
  | boundary
deriving DecidableEq, Repr

namespace Key

/-- The spelling of a key. -/
def text : Key → String
  | environment => "environment"
  | neighborhood => "neighborhood"
  | states => "states"
  | rules => "rules"
  | boundary => "boundary"

/-- The keys that every program must declare. -/
def required : List Key := [environment, neighborhood, states, rules]

/-- All keys, the required ones first. -/
def all : List Key := required ++ [boundary]

/-- The key with the given spelling. -/
def ofText? (text : String) : Option Key :=
  all.find? fun key => key.text == text

/-- What may be assigned to a key. -/
def domain : Key → String
  | environment => "1D, 2D or 3D"
  | neighborhood => "MOORE, VON_NEUMANN or a \x7b...\x7d block of offsets"
  | states => "a \x7b...\x7d block of state declarations"
  | rules => "a \x7b...\x7d block of rules"
  | boundary => "void, wrap or static"

end Key

/-- The two places of a state in a rule. -/
inductive Role where
  | source
  | target
deriving DecidableEq, Repr

/-- The word before a state in a rule. -/
def Role.text : Role → String
  | .source => "from"
  | .target => "to"

/-- The deepest nesting that a condition may have. -/
def maxDepth : Nat := 64

/-- The ways in which a program fails to make sense. The numbers in it are whole, unless
it comes from outside the reader. -/
inductive Problem (ν : Type := Int) where
  | unknownKey (key : Name)
  | wrongKind (key : Name) (expected : Key)
  | repeatedKey (first again : Name)
  | missingKey (key : Key)
  | noSuchAxis (axis : Name) (rank : ν)
  | sizeNotPositive (axis : Name) (size : ν)
  | magnitudeNotPositive (axis : Name) (direction : String) (magnitude : ν)
  | emptyNeighborhood (key : Name)
  | repeatedState (first again : Name)
  | markedTwice (state : Name)
  | secondDefault (first : String) (second : Name)
  | repeatedAttribute (state key : Name)
  | noDefault (key : Name)
  | undeclaredInBoundary (state : Name)
  | undeclaredInRule (role : Role) (state : Name)
  | undeclaredInCondition (state : Name)
  | outOfRange (state : Name) (comparison : String) (bound : ν) (most : Nat)
  | nestedTooDeep (source target : Name)
deriving DecidableEq, Repr

/-- A line number in a sentence; an unknown one is a question mark. -/
def lineText (name : Name) : String :=
  match name.place with
  | some place => toString place.line
  | none => "?"

namespace Problem

variable {ν : Type}

/-- The report of a problem. -/
def message [ToString ν] : Problem ν → String
  | unknownKey key =>
    "Unknown declaration " ++ key.text ++ "; expected one of " ++
      ", ".intercalate (Key.all.map Key.text)
  | wrongKind key expected => key.text ++ " must be " ++ expected.domain
  | repeatedKey first again =>
    again.text ++ " declared more than once (first declaration at line " ++
      lineText first ++ ")"
  | missingKey key => "Missing " ++ key.text ++ " declaration"
  | noSuchAxis axis rank =>
    "Axis " ++ axis.text ++ " does not exist in " ++ toString rank ++ "D"
  | sizeNotPositive axis size =>
    "Size of axis " ++ axis.text ++ " must be positive, got " ++ toString size
  | magnitudeNotPositive axis direction magnitude =>
    "Neighborhood offset " ++ axis.text ++ " " ++ direction ++ " " ++ toString magnitude ++
      " must have magnitude at least 1"
  | emptyNeighborhood _ => "Neighborhood is empty"
  | repeatedState first again =>
    "State " ++ again.text ++ " declared more than once (first at line " ++
      lineText first ++ ")"
  | markedTwice state => "State " ++ state.text ++ " is marked default twice"
  | secondDefault first second =>
    "States " ++ first ++ " and " ++ second.text ++ " are both marked default"
  | repeatedAttribute state key =>
    "State " ++ state.text ++ " has attribute " ++ key.text ++ " more than once"
  | noDefault _ => "static boundary without a state needs a default state"
  | undeclaredInBoundary state => "Undeclared state " ++ state.text ++ " in boundary"
  | undeclaredInRule role state =>
    "Undeclared state " ++ state.text ++ " in " ++ role.text ++ " clause"
  | undeclaredInCondition state => "Undeclared state " ++ state.text ++ " in condition"
  | outOfRange state comparison bound most =>
    "Comparison " ++ testText state.text comparison (toString bound) ++
      " is out of range: counts lie in [0, " ++ toString most ++ "]"
  | nestedTooDeep source target =>
    "Condition of rule from " ++ source.text ++ " to " ++ target.text ++
      " is nested more than " ++ toString maxDepth ++ " levels deep"

/-- The name at which a problem is reported. A missing key is reported nowhere. -/
def name? : Problem ν → Option Name
  | unknownKey key | wrongKind key _ | emptyNeighborhood key | noDefault key => some key
  | repeatedKey _ again => some again
  | missingKey _ => none
  | noSuchAxis axis _ | sizeNotPositive axis _ | magnitudeNotPositive axis _ _ => some axis
  | repeatedState _ again => some again
  | markedTwice state | secondDefault _ state => some state
  | repeatedAttribute _ key => some key
  | undeclaredInBoundary state | undeclaredInRule _ state | undeclaredInCondition state =>
    some state
  | outOfRange state .. => some state
  | nestedTooDeep source _ => some source

/-- The place of a problem in the source text, if it has one. -/
def place? (problem : Problem ν) : Option Position :=
  problem.name?.bind Name.place

end Problem

/-- A remark on a program that makes sense: a rule that leaves its cells as they are. -/
structure Warning where
  source : Name
  target : Name
deriving DecidableEq, Repr

/-- The report of a warning. -/
def Warning.message (warning : Warning) : String :=
  "Rule from " ++ warning.source.text ++ " to " ++ warning.target.text ++
    " never changes the cell"

/-- The place of a warning in the source text, if it has one. -/
def Warning.place? (warning : Warning) : Option Position :=
  warning.source.place

end Cellular
