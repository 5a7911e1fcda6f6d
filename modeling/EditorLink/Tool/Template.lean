import EditorLink.Json.Display
import EditorLink.Text.Basic

/-!
# Script templates

A script with its head and empty callbacks, written without asking the editor. Without arguments it
extends `Node` and has `_ready` alone.
-/

namespace EditorLink.Tool

structure Callback where
  /-- The argument that includes the callback or leaves it out. -/
  argument : String
  included : Bool
  head : String

def callbacks : List Callback :=
  [⟨"include_ready", true, "func _ready():"⟩,
   ⟨"include_process", false, "func _process(delta):"⟩,
   ⟨"include_physics", false, "func _physics_process(delta):"⟩,
   ⟨"include_input", false, "func _input(event):"⟩]

def Callback.isWanted (callback : Callback) (arguments : Fields) : Bool :=
  match Fields.get? arguments callback.argument with
  | some value => value.isTruthy
  | none => callback.included

def classLine (arguments : Fields) : String :=
  let name := Fields.getOrNull arguments "class_name"
  if name.isTruthy then s!"class_name {name.shown}\n" else ""

def extendsLine (arguments : Fields) : String :=
  let base := (Fields.getOrNull arguments "extends_type").orElse (.str "Node")
  s!"extends {base.shown}\n\n"

def scriptTemplate (arguments : Fields) : String :=
  let bodies := (callbacks.filter (·.isWanted arguments)).map fun callback =>
    callback.head ++ "\n\tpass\n\n"
  let text := classLine arguments ++ extendsLine arguments ++ String.join bodies
  String.ofList (Text.trimRight text.toList)

end EditorLink.Tool
