import Cellular.Proofs.Condition.Truth
import Cellular.Proofs.Source.Moved

/-!
# Programs without their places

Names that were read remember where. Programs that were read from different texts can
therefore only be compared when their names are moved to one place. This exchanges names
for others, so that nothing that the reader does depends on the places: reading with moved
names and tokens is the same as moving the names of what is read.
-/

namespace Cellular

/-! ## Programs -/

/-- A name at the place where every text starts. -/
def Name.anchored (name : Name) : Name :=
  ⟨name.text, some .start⟩

/-- A rule for offsets with its axis at one place. -/
abbrev OffsetRule.anchored : OffsetRule → OffsetRule :=
  OffsetRule.map Name.anchored

/-- A neighbourhood with all axes at one place. -/
abbrev Neighborhood.anchored : Neighborhood → Neighborhood :=
  Neighborhood.map Name.anchored

/-- An environment with all axes at one place. -/
abbrev Environment.anchored : Environment → Environment :=
  Environment.map Name.anchored

/-- A boundary with its state at one place. -/
abbrev Boundary.anchored : Boundary (Option Name) → Boundary (Option Name) :=
  Boundary.map (Option.map Name.anchored)

/-- An attribute with its names at one place. -/
abbrev Attribute.anchored : Attribute → Attribute :=
  Attribute.map Name.anchored

/-- A state with all its names at one place. -/
abbrev StateEntry.anchored : StateEntry → StateEntry :=
  StateEntry.map Name.anchored

/-- A condition with all states at one place. -/
abbrev Condition.anchored : Condition (CountTest Name) → Condition (CountTest Name) :=
  Condition.map (CountTest.map Name.anchored)

/-- A rule with all states at one place. -/
abbrev Rule.anchored : Rule Name → Rule Name :=
  Rule.map Name.anchored

/-- A value with all names at one place. -/
abbrev Value.anchored : Value → Value :=
  Value.map Name.anchored

/-- A declaration with all its names at one place. -/
abbrev Declaration.anchored : Declaration → Declaration :=
  Declaration.map Name.anchored

/-! ### Moving twice -/

theorem Condition.anchored_anchored (c : Condition (CountTest Name)) :
    c.anchored.anchored = c.anchored :=
  Condition.map_map _ _ c

theorem Declaration.anchored_anchored (declaration : Declaration) :
    declaration.anchored.anchored = declaration.anchored :=
  declaration.map_map _ _

/-! ## Unfinished programs -/

/-- A token at the place where every text starts. -/
def Token.anchored (token : Token) : Token :=
  { token with place := .start }

namespace Place

/-- A place in a program with all names at one place in the text. -/
abbrev anchored : Place → Place :=
  carried Name.anchored []

theorem wanted_anchored (place : Place) : place.anchored.wanted = place.wanted :=
  wanted_carried ..

theorem finish?_anchored (place : Place) :
    place.anchored.finish? = place.finish?.map (List.map Declaration.anchored) :=
  finish?_carried ..

theorem step_anchored (place : Place) (token : Token) :
    place.anchored.step token.anchored = (place.step token).map anchored := by
  have same : token.Carried Name.anchored token.anchored := ⟨rfl, rfl, rfl⟩
  exact step_carried same place

end Place

end Cellular
