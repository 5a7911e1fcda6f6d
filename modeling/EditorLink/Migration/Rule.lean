import EditorLink.Migration.Pattern
import EditorLink.Migration.Table

/-!
# Detection rules

A rule is a pattern and the change that it reports when the pattern occurs anywhere in a script.
Rules are tried in a fixed order, and each reports at most once.
-/

namespace EditorLink.Migration

inductive Rule where
  | hasProperty
  | setLooped
  | colorAtOffset
  | colorRect
  | shaderParameter
  | material (property : MaterialProperty)
deriving DecidableEq

/-! ## Patterns of rules -/

/-- A call of a method on any receiver: the point, the name, and an opening parenthesis. -/
def methodCall (name : String) : Pattern Unit := fun _ rest => do
  let rest ← literal? "." rest
  let rest ← literal? name rest
  let rest ← openParen? rest
  return ((), rest)

def colorRectName : Pattern Unit := fun _ rest =>
  (literal? "ColorRect" rest).map fun rest => ((), rest)

def isArithmetic (c : Char) : Bool := c == '+' || c == '-' || c == '*' || c == '/'

/-- Arithmetic on the result of a call of `get_shader_parameter`. -/
def shaderArithmetic : Pattern Unit := fun _ rest => do
  let rest ← literal? "get_shader_parameter(" rest
  let (_, rest) ← run? (· != ')') rest
  let rest ← literal? ")" rest
  match skipBlanks rest with
  | c :: rest => if isArithmetic c then some ((), rest) else none
  | [] => none

/-- A material's property up to the equals sign after it, with or without `process_` before
`material`. -/
def materialTarget? (property : MaterialProperty) (rest : List Char) : Option (List Char) := do
  let rest := (literal? "process_" rest).getD rest
  let rest ← literal? "material" rest
  let rest ← literal? "." (skipBlanks rest)
  let rest ← literal? property.name (skipBlanks rest)
  literal? "=" (skipBlanks rest)

/-- A material's property after its owner and a point; the owner is captured. -/
def ownedTarget? (property : MaterialProperty) (rest : List Char) :
    Option (List Char × List Char) := do
  let (owner, rest) ← word? rest
  let rest ← literal? "." rest
  let rest ← materialTarget? property rest
  return (owner, rest)

/-- An assignment to a material's property, with the owner of the material when it is named. The
form with an owner is tried first. -/
def materialAssignment (property : MaterialProperty) : Pattern (Option (List Char)) :=
  fun before rest =>
    match ownedTarget? property rest with
    | some (owner, rest) => some (some owner, rest)
    | none =>
      if atWordStart before then
        (materialTarget? property rest).map fun rest => (none, rest)
      else none

namespace Rule

def all : List Rule :=
  [.hasProperty, .setLooped, .colorAtOffset, .colorRect, .shaderParameter] ++
    MaterialProperty.all.map .material

def change : Rule → ApiChange
  | .hasProperty => hasPropertyGone
  | .setLooped => setLoopedRemoved
  | .colorAtOffset => colorAtOffsetRemoved
  | .colorRect => colorRectDeprecated
  | .shaderParameter => shaderParameterNullable
  | .material property => materialMoved property

/-- Whether the rule's pattern occurs in a script. -/
def fires (rule : Rule) (source : List Char) : Bool :=
  match rule with
  | .hasProperty => (methodCall "has_property").occurs source
  | .setLooped => (methodCall "set_looped").occurs source
  | .colorAtOffset => (methodCall "get_color_at_offset").occurs source
  | .colorRect => colorRectName.occurs source
  | .shaderParameter => shaderArithmetic.occurs source
  | .material property => (materialAssignment property).occurs source

end Rule

/-- The changes that a script is affected by, in rule order. -/
def reportedChanges (source : List Char) : List ApiChange :=
  (Rule.all.filter (·.fires source)).map Rule.change

example : reportedChanges "process_material . lifetime == 2".toList = [materialMoved .lifetime] := by
  decide +kernel

example : reportedChanges "xmaterial.lifetime = 2".toList = [] := by decide +kernel

end EditorLink.Migration
