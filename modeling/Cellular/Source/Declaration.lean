import Cellular.Condition.Basic
import Cellular.Space.Boundary
import Cellular.Space.Neighborhood

/-!
# Source programs

A source program is a list of declarations: a key and a value, in the order in
which they were written. What a program needs to be complete and meaningful is not
part of these types; the same key may occur twice, an axis may not exist, and a
rule may speak of states that nobody declared.
-/

namespace Cellular

/-- The rank of a space and the sizes that are declared for its axes. -/
structure Environment where
  rank : Nat
  sizes : List (Name × Int)
deriving DecidableEq, Repr

/-- What a state is marked with: as the default, or by a key with a token. -/
inductive Attribute where
  | defaultMark
  | keyed (key token : Name)
deriving DecidableEq, Repr

/-- A state as it is declared. -/
structure StateEntry where
  name : Name
  attributes : List Attribute
deriving DecidableEq, Repr

/-- A rule changes cells of one state into another where its condition holds. -/
structure Rule (σ : Type) where
  source : σ
  target : σ
  condition : Condition (CountTest σ)
deriving DecidableEq, Repr

/-- What a declaration assigns to its key. -/
inductive Value where
  | environment (environment : Environment)
  | neighborhood (neighborhood : Neighborhood)
  | boundary (boundary : Boundary (Option Name))
  | states (entries : List StateEntry)
  | rules (rules : List (Rule Name))
deriving DecidableEq, Repr

/-- A key with its value. -/
structure Declaration where
  key : Name
  value : Value
deriving DecidableEq, Repr

end Cellular
