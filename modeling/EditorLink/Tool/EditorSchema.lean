import EditorLink.Tool.EditorTool

/-!
# What editor tools take

The description and the input schema of each editor tool, as agents see them.
-/

namespace EditorLink

namespace Tool

/-- A text argument with its description. -/
def textProperty (name description : String) : Property where
  name := name
  description := some description

def flagProperty (name : String) (default : Bool) : Property where
  name := name
  kind := .flag
  default := some (.bool default)

end Tool

namespace EditorTool

open Tool

def description : EditorTool → String
  | createNode => "Create a new node in the Godot scene tree"
  | deleteNode => "Delete a node from the Godot scene tree"
  | updateNodeProperty => "Update a property of a node in the Godot scene tree"
  | getNodeProperties => "Get all properties of a node in the Godot scene tree"
  | listNodes => "List all child nodes under a parent node in the Godot scene tree"
  | createScene => "Create a new empty scene with optional root node type"
  | saveScene => "Save the current scene to disk"
  | openScene => "Open a scene in the editor"
  | getCurrentScene => "Get information about the currently open scene"
  | getProjectInfo => "Get information about the current Godot project"
  | createResource => "Create a new resource in the project"
  | createScript => "Create a new GDScript file in the project"
  | editScript => "Edit an existing GDScript file"
  | getScript =>
    "Get the content of a GDScript file, by path or by the node it is attached to"
  | createScriptTemplate => "Generate a GDScript template with common boilerplate"
  | executeEditorScript => "Execute arbitrary GDScript code in the Godot editor"

def schema : EditorTool → Schema
  | createNode =>
    { properties :=
        [textProperty "parent_path"
          "Path to the parent node (e.g. \"/root\", \"/root/MainScene\")",
         textProperty "node_type"
          "Type of node to create (e.g. \"Node2D\", \"Sprite2D\", \"Label\")",
         textProperty "node_name" "Name for the new node"]
      required := ["parent_path", "node_type", "node_name"] }
  | deleteNode =>
    { properties :=
        [textProperty "node_path"
          "Path to the node to delete (e.g. \"/root/MainScene/Player\")"]
      required := ["node_path"] }
  | updateNodeProperty =>
    { properties :=
        [textProperty "node_path"
          "Path to the node to update (e.g. \"/root/MainScene/Player\")",
         textProperty "property"
          "Name of the property (e.g. \"position\", \"text\", \"modulate\")",
         { textProperty "value" "New value for the property" with kind := .anything }]
      required := ["node_path", "property", "value"] }
  | getNodeProperties =>
    { properties :=
        [textProperty "node_path"
          "Path to the node to inspect (e.g. \"/root/MainScene/Player\")"]
      required := ["node_path"] }
  | listNodes =>
    { properties :=
        [textProperty "parent_path"
          "Path to the parent node (e.g. \"/root\", \"/root/MainScene\")"]
      required := ["parent_path"] }
  | createScene =>
    { properties :=
        [textProperty "path" "Where to save the scene (e.g. \"res://scenes/new_scene.tscn\")",
         { textProperty "root_node_type"
            "Type of the root node (e.g. \"Node2D\", \"Node3D\", \"Control\")" with
            default := some (.str "Node") }]
      required := ["path"] }
  | saveScene =>
    { properties :=
        [textProperty "path" "Where to save the scene; defaults to the scene's current path"] }
  | openScene =>
    { properties :=
        [textProperty "path" "Path to the scene file (e.g. \"res://scenes/main.tscn\")"]
      required := ["path"] }
  | getCurrentScene => {}
  | getProjectInfo => {}
  | createResource =>
    { properties :=
        [textProperty "resource_type"
          "Type of resource (e.g. \"ImageTexture\", \"StyleBoxFlat\")",
         textProperty "resource_path" "Where to save it (e.g. \"res://resources/style.tres\")",
         { textProperty "properties" "Property values to set on the resource" with
            kind := .object }]
      required := ["resource_type", "resource_path"] }
  | createScript =>
    { properties :=
        [textProperty "script_path"
          "Where to save the script (e.g. \"res://scripts/player.gd\")",
         textProperty "content" "Content of the script",
         textProperty "node_path" "Node to attach the script to"]
      required := ["script_path", "content"] }
  | editScript =>
    { properties :=
        [textProperty "script_path" "Path to the script (e.g. \"res://scripts/player.gd\")",
         textProperty "content" "New content of the script"]
      required := ["script_path", "content"] }
  | getScript =>
    { properties :=
        [textProperty "script_path" "Path to the script (e.g. \"res://scripts/player.gd\")",
         textProperty "node_path" "Path to a node with a script attached"] }
  | createScriptTemplate =>
    { properties :=
        [textProperty "class_name" "Optional class name",
         { textProperty "extends_type"
            "Base class (e.g. \"Node\", \"Node2D\", \"Control\")" with
            default := some (.str "Node") },
         flagProperty "include_ready" true,
         flagProperty "include_process" false,
         flagProperty "include_input" false,
         flagProperty "include_physics" false] }
  | executeEditorScript =>
    { properties := [textProperty "code" "GDScript code to execute in the editor context"]
      required := ["code"] }

end EditorTool

end EditorLink
