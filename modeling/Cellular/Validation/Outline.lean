import Cellular.Validation.Problem

/-!
# Outlines of programs

The outline of a program has one slot for each key. A declaration fills its slot if
the key is known, the value is of the kind the key asks for, and the slot is still
free; otherwise it is a problem and changes nothing.
-/

namespace Cellular

/-- The declarations of a program by key, each with the name that declares it. -/
structure Outline where
  environment : Option (Name × Environment) := none
  neighborhood : Option (Name × Neighborhood) := none
  states : Option (Name × List StateEntry) := none
  rules : Option (Name × List (Rule Name)) := none
  boundary : Option (Name × Boundary (Option Name)) := none

/-- Fills a free slot. -/
def fillSlot {β : Type} (slot : Option (Name × β)) (key : Name) (value : β) :
    Except Problem (Option (Name × β)) :=
  match slot with
  | some (first, _) => .error (.repeatedKey first key)
  | none => .ok (some (key, value))

namespace Outline

/-- The outline with one more declaration. -/
def add (outline : Outline) (declaration : Declaration) : Except Problem Outline :=
  let key := declaration.key
  match Key.ofText? key.text with
  | none => .error (.unknownKey key)
  | some expected => match expected, declaration.value with
    | .environment, .environment space =>
      (fillSlot outline.environment key space).map fun slot => { outline with environment := slot }
    | .neighborhood, .neighborhood shape =>
      (fillSlot outline.neighborhood key shape).map fun slot =>
        { outline with neighborhood := slot }
    | .states, .states block =>
      (fillSlot outline.states key block).map fun slot => { outline with states := slot }
    | .rules, .rules block =>
      (fillSlot outline.rules key block).map fun slot => { outline with rules := slot }
    | .boundary, .boundary edge =>
      (fillSlot outline.boundary key edge).map fun slot => { outline with boundary := slot }
    | _, _ => .error (.wrongKind key expected)

/-- The outline of a program and the problems of its declarations, in their order. -/
def ofProgram (program : List Declaration) : Outline × List Problem :=
  program.foldl
    (fun (outline, problems) declaration =>
      match outline.add declaration with
      | .ok outline => (outline, problems)
      | .error problem => (outline, problems ++ [problem]))
    ({}, [])

end Outline

/-- A problem for every required key that no declaration has. -/
def missingKeys (program : List Declaration) : List Problem :=
  (Key.required.filter fun key =>
    !program.any fun declaration => declaration.key.text == key.text).map .missingKey

end Cellular
