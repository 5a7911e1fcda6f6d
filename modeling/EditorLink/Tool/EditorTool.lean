import EditorLink.Exchange.Basic
import EditorLink.Tool.Schema
import EditorLink.Tool.Template

/-!
# Editor tools

The tools that work on the project open in the editor. Each sends a command and tells the result in
a sentence; the template tool alone answers by itself. A failure of the link is told to the agent
behind the tool's own words for it.
-/

namespace EditorLink

inductive EditorTool where
  | createNode
  | deleteNode
  | updateNodeProperty
  | getNodeProperties
  | listNodes
  | createScene
  | saveScene
  | openScene
  | getCurrentScene
  | getProjectInfo
  | createResource
  | createScript
  | editScript
  | getScript
  | createScriptTemplate
  | executeEditorScript
deriving DecidableEq

namespace EditorTool

open Tool

def all : List EditorTool :=
  [.createNode, .deleteNode, .updateNodeProperty, .getNodeProperties, .listNodes, .createScene,
   .saveScene, .openScene, .getCurrentScene, .getProjectInfo, .createResource, .createScript,
   .editScript, .getScript, .createScriptTemplate, .executeEditorScript]

def name : EditorTool → String
  | createNode => "create_node"
  | deleteNode => "delete_node"
  | updateNodeProperty => "update_node_property"
  | getNodeProperties => "get_node_properties"
  | listNodes => "list_nodes"
  | createScene => "create_scene"
  | saveScene => "save_scene"
  | openScene => "open_scene"
  | getCurrentScene => "get_current_scene"
  | getProjectInfo => "get_project_info"
  | createResource => "create_resource"
  | createScript => "create_script"
  | editScript => "edit_script"
  | getScript => "get_script"
  | createScriptTemplate => "create_script_template"
  | executeEditorScript => "execute_editor_script"

/-! ## Telling results -/

/-- The value of a key as a sentence shows it. -/
def shownAt (fields : Fields) (key : String) : String := (fields.getOrNull key).shown

/-- The value of a key, or of a fallback where the key is absent. -/
def shownOr (fields : Fields) (key : String) (fallback : Value) : String :=
  ((fields.get? key).getD fallback).shown

/-- A script as a block of its own. -/
def fenced (script : String) : String := "```gdscript\n" ++ script ++ "\n```"

def propertyLines (properties : Fields) : String :=
  "\n".intercalate (properties.map fun (key, value) => s!"{key}: {value.jsonText}")

def tellProperties (path : Value) (result : Fields) : Except CallFault String := do
  let properties ← ((result.getOrNull "properties").orElse (.obj [])).fieldsFor "items"
  return s!"Properties of node at {path.shown}:\n\n" ++ propertyLines properties

def childLine (child : Value) : Except CallFault String := do
  let fields ← child.fieldsFor "get"
  return shownAt fields "name" ++ " (" ++ shownAt fields "type" ++ ") - " ++ shownAt fields "path"

def tellChildren (parent : Value) (result : Fields) : Except CallFault String := do
  let children := result.getOrNull "children"
  if children.isTruthy then
    let lines ← (← children.iterated).mapM childLine
    return s!"Children of node at {parent.shown}:\n\n" ++ "\n".intercalate lines
  else return s!"No child nodes found under {parent.shown}"

def tellProject (result : Fields) : Except CallFault String := do
  let version ← ((result.getOrNull "godot_version").orElse (.obj [])).fieldsFor "get"
  let scene := result.getOrNull "current_scene"
  return "\n".intercalate
    ["Project Name: " ++ shownAt result "project_name",
     "Project Version: " ++ shownAt result "project_version",
     "Project Path: " ++ shownAt result "project_path",
     "Godot Version: " ++
       ".".intercalate [shownAt version "major", shownAt version "minor", shownAt version "patch"],
     if scene.isTruthy then s!"Current Scene: {scene.shown}" else "No scene is currently open"]

/-- The output is told line by line; the result is indented, which takes room for its nesting. -/
def tellExecution (room : Nat) (result : Fields) : Except CallFault String := do
  let output :=
    match result.getOrNull "output" with
    | .arr (line :: lines) =>
      "\n\nOutput:\n" ++ "\n".intercalate ((line :: lines).map Value.shown)
    | _ => ""
  let text := "Script executed successfully" ++ output
  let value := result.getOrNull "result"
  if value.isTruthy then
    return text ++ "\n\nResult:\n" ++ (← value.indentedWithin room)
  else return text

/-! ## Calls -/

/-- The arguments among `keys` that count as given. -/
def givenArguments (arguments : Fields) (keys : List String) : Fields :=
  keys.filterMap fun key =>
    let value := arguments.getOrNull key
    if value.isTruthy then some (key, value) else none

/-- What a tool does: it may send commands, and gives a text or ends in a fault. -/
abbrev Work (α : Type) := ExceptT CallFault Exchange α

/-- Sends a command and gives the fields of its result, none where the result is no object. When the
link fails, the words for the failure are told with the reason. -/
def send (name : String) (params : Fields) (failure : String) : Work Fields := do
  match ← ExceptT.lift (Exchange.send ⟨name, params⟩) with
  | .ok result => return result.asFields?.getD []
  | .error (.link _ message) => throw (.failed s!"{failure}: {message}")
  | .error (.foreign name message) => throw (.foreign name message)

/-- The work of a tool. There is only so much room to write values that stand inside each other. -/
def work (room : Nat) (tool : EditorTool) (arguments : Fields) : Work String :=
  match tool with
  | createNode => do
    let parent ← arguments.argument "parent_path"
    let kind ← arguments.argument "node_type"
    let name ← arguments.argument "node_name"
    let result ← send "create_node"
      [("parent_path", parent), ("node_type", kind), ("node_name", name)] "Failed to create node"
    return s!"Created {kind.shown} node named \"{name.shown}\" at " ++ shownAt result "node_path"
  | deleteNode => do
    let path ← arguments.argument "node_path"
    let _ ← send "delete_node" [("node_path", path)] "Failed to delete node"
    return s!"Deleted node at {path.shown}"
  | updateNodeProperty => do
    let path ← arguments.argument "node_path"
    let property ← arguments.argument "property"
    let value := arguments.getOrNull "value"
    let _ ← send "update_node_property"
      [("node_path", path), ("property", property), ("value", value)]
      "Failed to update node property"
    return s!"Updated property \"{property.shown}\" of node at {path.shown} to {value.jsonText}"
  | getNodeProperties => do
    let path ← arguments.argument "node_path"
    let result ← send "get_node_properties" [("node_path", path)] "Failed to get node properties"
    tellProperties path result
  | listNodes => do
    let parent ← arguments.argument "parent_path"
    let result ← send "list_nodes" [("parent_path", parent)] "Failed to list nodes"
    tellChildren parent result
  | createScene => do
    let path ← arguments.argument "path"
    let root := (arguments.getOrNull "root_node_type").orElse (.str "Node")
    let result ← send "create_scene" [("path", path), ("root_node_type", root)]
      "Failed to create scene"
    return "Created new scene at " ++ shownOr result "scene_path" path ++
      " with root node type " ++ shownOr result "root_node_type" root
  | saveScene => do
    let result ← send "save_scene" (givenArguments arguments ["path"]) "Failed to save scene"
    return "Saved scene to " ++ shownOr result "scene_path" (arguments.getOrNull "path")
  | openScene => do
    let path ← arguments.argument "path"
    let result ← send "open_scene" [("path", path)] "Failed to open scene"
    return "Opened scene at " ++ shownOr result "scene_path" path
  | getCurrentScene => do
    let result ← send "get_current_scene" [] "Failed to get current scene"
    return "Current scene: " ++ shownAt result "scene_path" ++ "\nRoot node: " ++
      shownAt result "root_node_name" ++ " (" ++ shownAt result "root_node_type" ++ ")"
  | getProjectInfo => do
    let result ← send "get_project_info" [] "Failed to get project info"
    tellProject result
  | createResource => do
    let kind ← arguments.argument "resource_type"
    let path ← arguments.argument "resource_path"
    let properties := (arguments.getOrNull "properties").orElse (.obj [])
    let result ← send "create_resource"
      [("resource_type", kind), ("resource_path", path), ("properties", properties)]
      "Failed to create resource"
    return s!"Created {kind.shown} resource at " ++ shownOr result "resource_path" path
  | createScript => do
    let path ← arguments.argument "script_path"
    let content ← arguments.argument "content"
    let node := arguments.getOrNull "node_path"
    let attached := if node.isTruthy then s!" and attached to node at {node.shown}" else ""
    let result ← send "create_script"
      ([("script_path", path), ("content", content)] ++ givenArguments arguments ["node_path"])
      "Failed to create script"
    return "Created script at " ++ shownOr result "script_path" path ++ attached
  | editScript => do
    let path ← arguments.argument "script_path"
    let content ← arguments.argument "content"
    let _ ← send "edit_script" [("script_path", path), ("content", content)]
      "Failed to edit script"
    return s!"Updated script at {path.shown}"
  | getScript => do
    let params := givenArguments arguments ["script_path", "node_path"]
    if params.isEmpty then throw (.failed "Either script_path or node_path must be provided")
    let result ← send "get_script" params "Failed to get script"
    return "Script at " ++ shownAt result "script_path" ++ ":\n\n" ++
      fenced (shownOr result "content" (.str ""))
  | createScriptTemplate =>
    return "Generated GDScript template:\n\n" ++ fenced (scriptTemplate arguments)
  | executeEditorScript => do
    let code ← arguments.argument "code"
    let result ← send "execute_editor_script" [("code", code)] "Script execution failed"
    tellExecution room result

/-- The exchange of a call. -/
def call (room : Nat) (tool : EditorTool) (arguments : Fields) :
    Exchange (Except CallFault String) :=
  (tool.work room arguments).run

end EditorTool

end EditorLink
