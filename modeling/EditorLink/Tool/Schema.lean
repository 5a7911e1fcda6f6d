import EditorLink.Json.Display

/-!
# Input schemas

What arguments a tool takes. Arguments are accepted when every required one is there and every one
that the schema knows has its kind of value; others are let pass. `violation?` tells the worst
fault: a missing argument before a wrong one, a wrong argument before a wrong item of one, and of
several wrong ones the one with the last name.
-/

namespace EditorLink.Tool

inductive PropertyKind where
  | anything
  | text
  | choice (options : List String)
  | flag
  | object
  | textList
deriving DecidableEq

structure Property where
  name : String
  kind : PropertyKind := .text
  description : Option String := none
  default : Option Value := none

structure Schema where
  properties : List Property := []
  required : List String := []

/-! ## Acceptance -/

inductive Violation where
  | missing (key : String)
  | wrongType (value : Value) (typeName : String)
  | notOffered (value : Value) (options : List String)

def Violation.message : Violation → String
  | .missing key => Text.quoted key ++ " is a required property"
  | .wrongType value typeName => s!"{value.notated} is not of type '{typeName}'"
  | .notOffered value options =>
    s!"{value.notated} is not one of {(Value.strings options).notated}"

def isText : Value → Bool
  | .str _ => true
  | _ => false

/-- What is wrong with a value as such. -/
def PropertyKind.violation? (kind : PropertyKind) (value : Value) : Option Violation :=
  match kind, value with
  | .anything, _ => none
  | .text, .str _ => none
  | .text, value => some (.wrongType value "string")
  | .choice options, .str s => if s ∈ options then none else some (.notOffered value options)
  | .choice _, value => some (.wrongType value "string")
  | .flag, .bool _ => none
  | .flag, value => some (.wrongType value "boolean")
  | .object, .obj _ => none
  | .object, value => some (.wrongType value "object")
  | .textList, .arr _ => none
  | .textList, value => some (.wrongType value "array")

/-- What is wrong with the last wrong item of a list. -/
def PropertyKind.itemViolation? (kind : PropertyKind) (value : Value) : Option Violation :=
  match kind, value with
  | .textList, .arr items =>
    (items.reverse.find? (!isText ·)).map fun item => .wrongType item "string"
  | _, _ => none

/-- What is wrong with the arguments by one of two ways to look at a value, told for the argument
with the last name. -/
def Schema.wrongArgument? (schema : Schema) (arguments : Fields)
    (look : PropertyKind → Value → Option Violation) : Option Violation :=
  let wrong := schema.properties.filterMap fun property => do
    let value ← Fields.get? arguments property.name
    let violation ← look property.kind value
    return (property.name, violation)
  (wrong.foldl (fun worst found =>
    match worst with
    | none => some found
    | some (name, violation) => if name < found.1 then some found else some (name, violation))
    none).map (·.2)

def Schema.violation? (schema : Schema) (arguments : Fields) : Option Violation :=
  ((schema.required.find? fun key => (Fields.get? arguments key).isNone).map .missing).orElse
    fun _ => (schema.wrongArgument? arguments PropertyKind.violation?).orElse
      fun _ => schema.wrongArgument? arguments PropertyKind.itemViolation?

def Schema.accepts (schema : Schema) (arguments : Fields) : Bool :=
  (schema.violation? arguments).isNone

/-! ## Records -/

def PropertyKind.record : PropertyKind → Fields
  | .anything => []
  | .text => [("type", .str "string")]
  | .choice options => [("type", .str "string"), ("enum", .strings options)]
  | .flag => [("type", .str "boolean")]
  | .object => [("type", .str "object")]
  | .textList => [("type", .str "array"), ("items", .obj [("type", .str "string")])]

def optionalField (name : String) : Option Value → Fields
  | some value => [(name, value)]
  | none => []

def Property.record (property : Property) : Value :=
  .obj (property.kind.record ++ optionalField "default" property.default ++
    optionalField "description" (property.description.map .str))

def Schema.record (schema : Schema) : Value :=
  .obj [("type", .str "object"),
    ("properties", .obj (schema.properties.map fun property => (property.name, property.record))),
    ("required", .strings schema.required)]

end EditorLink.Tool
