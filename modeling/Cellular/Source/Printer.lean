import Cellular.Condition.Printer
import Cellular.Source.Declaration

/-!
# Printing source programs

Every declaration is printed on a line of its own, the entries of a block each on
an indented line. The printed text of a program that was read reads back as the
same program.
-/

namespace Cellular

/-! ## Shapes of text -/

/-- A block of lines between curly brackets. -/
def blockText (lines : List String) : String :=
  "\n".intercalate ("\x7b" :: (lines.map ("    " ++ ·) ++ ["\x7d"]))

/-- `2D`, `2D::(x = 3, y = 4)`. -/
def environmentText (rank : String) (sizes : List (String × String)) : String :=
  rank ++ "D" ++ if sizes.isEmpty then "" else
    "::(" ++ ", ".intercalate (sizes.map fun (axis, size) => axis ++ " = " ++ size) ++ ")"

/-- `x + 1`. -/
def offsetText (axis direction magnitude : String) : String :=
  axis ++ " " ++ direction ++ " " ++ magnitude

/-- Offset rules in a row between curly brackets. -/
def offsetsText (rules : List String) : String :=
  "\x7b " ++ ", ".intercalate rules ++ " \x7d"

/-- `static`, `static::(name)`. -/
def staticText : Option String → String
  | none => "static"
  | some state => "static::(" ++ state ++ ")"

/-- `default`. -/
def defaultText : String := "default"

/-- `key(token)`. -/
def attributeText (key token : String) : String :=
  key ++ "(" ++ token ++ ")"

/-- `name`, `name :: attribute`, `name :: (attribute, attribute)`. -/
def stateText (name : String) : List String → String
  | [] => name
  | [single] => name ++ " :: " ++ single
  | several => name ++ " :: (" ++ ", ".intercalate several ++ ")"

/-- `from name to name := condition`. -/
def ruleText (source target condition : String) : String :=
  "from " ++ source ++ " to " ++ target ++ " := " ++ condition

/-- A block of rules. Without rules it fits on a line. -/
def rulesText : List String → String
  | [] => "\x7b \x7d"
  | rules => blockText rules

/-- `key := value`. -/
def declarationText (key value : String) : String :=
  key ++ " := " ++ value

/-- Every declaration on a line of its own. -/
def programText (declarations : List String) : String :=
  "\n".intercalate declarations ++ "\n"

/-! ## Programs -/

/-- The written form of an environment. -/
def Environment.text (environment : Environment) : String :=
  environmentText (toString environment.rank)
    (environment.sizes.map fun (axis, size) => (axis.text, toString size))

/-- The written form of an offset rule. -/
def OffsetRule.text (rule : OffsetRule) : String :=
  offsetText rule.axis.text rule.direction.symbol (toString rule.magnitude)

/-- `MOORE`, or the rules in a row. -/
def Neighborhood.text : Neighborhood → String
  | .moore => "MOORE"
  | .vonNeumann => "VON_NEUMANN"
  | .custom rules => offsetsText (rules.map OffsetRule.text)

/-- `void`, `wrap`, or a static boundary. -/
def Boundary.declaredText : Boundary (Option Name) → String
  | .void => "void"
  | .wrap => "wrap"
  | .static state => staticText (state.map Name.text)

/-- The written form of an attribute. -/
def Attribute.text : Attribute → String
  | .defaultMark => defaultText
  | .keyed key token => attributeText key.text token.text

/-- The written form of an entry. -/
def StateEntry.text (entry : StateEntry) : String :=
  stateText entry.name.text (entry.attributes.map Attribute.text)

/-- The written form of a rule. -/
def Rule.text {σ : Type} [ToString σ] (rule : Rule σ) : Except TreeFault String := do
  return ruleText (toString rule.source) (toString rule.target)
    (← rule.condition.print (fun test => .ok test.text) 0)

/-- The written form of a value. -/
def Value.text : Value → Except TreeFault String
  | .environment space => .ok space.text
  | .neighborhood shape => .ok shape.text
  | .boundary edge => .ok edge.declaredText
  | .states block => .ok (blockText (block.map StateEntry.text))
  | .rules block => do return rulesText (← block.mapM Rule.text)

/-- The written form of a declaration. -/
def Declaration.text (declaration : Declaration) : Except TreeFault String := do
  return declarationText declaration.key.text (← declaration.value.text)

/-- The text of a source program. -/
def printProgram (program : List Declaration) : Except TreeFault String := do
  return programText (← program.mapM Declaration.text)

end Cellular
