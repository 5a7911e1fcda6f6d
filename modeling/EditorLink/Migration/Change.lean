/-!
# API changes

One difference between the script API of Godot 3.x and that of Godot 4.x, with how severe it is and
which edit of the script text, if any, moves a script across it.
-/

namespace EditorLink.Migration

inductive Severity where
  | breaking
  | deprecated
  | changed
deriving DecidableEq

def Severity.name : Severity → String
  | .breaking => "breaking"
  | .deprecated => "deprecated"
  | .changed => "changed"

def Severity.all : List Severity := [.breaking, .deprecated, .changed]

/-- The properties that a particles material no longer has; the particles node has them. -/
inductive MaterialProperty where
  | emissionAmount
  | lifetime
  | oneShot
  | randomness
  | fixedFps
deriving DecidableEq

namespace MaterialProperty

def all : List MaterialProperty := [.emissionAmount, .lifetime, .oneShot, .randomness, .fixedFps]

def name : MaterialProperty → String
  | .emissionAmount => "emission_amount"
  | .lifetime => "lifetime"
  | .oneShot => "one_shot"
  | .randomness => "randomness"
  | .fixedFps => "fixed_fps"

/-- The name of the property on the node. -/
def nodeName : MaterialProperty → String
  | .emissionAmount => "amount"
  | property => property.name

end MaterialProperty

/-- The edits of script text. -/
inductive FixStrategy where
  | hasProperty
  | setLooped
  | colorAtOffset
  | colorRect
  | material (property : MaterialProperty)
deriving DecidableEq

def FixStrategy.name : FixStrategy → String
  | .hasProperty => "has_property"
  | .setLooped => "set_looped"
  | .colorAtOffset => "get_color_at_offset"
  | .colorRect => "color_rect"
  | .material property => "material_" ++ property.name

def FixStrategy.all : List FixStrategy :=
  [.hasProperty, .setLooped, .colorAtOffset, .colorRect] ++ MaterialProperty.all.map .material

structure ApiChange where
  category : String
  fromSymbol : Option String := none
  toSymbol : Option String := none
  description : String
  migrationNotes : String
  exampleBefore : Option String := none
  exampleAfter : Option String := none
  severity : Severity
  fix : Option FixStrategy := none
deriving DecidableEq

end EditorLink.Migration
