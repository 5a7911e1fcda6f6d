import EditorLink.Json.Value

/-!
# The resource catalog

The resources that agents can read: nine with a fixed URI, and two templates, whose URIs go on with
the path of a script. Every URI of a template that begins with the longer lead belongs to it, so the
longer lead is tried first.
-/

namespace EditorLink

inductive Resource where
  | editorState
  | selectedNode
  | currentScript
  | projectStructure
  | projectSettings
  | projectResources
  | scenes
  | currentScene
  | scripts
deriving DecidableEq

def jsonMime : String := "application/json"

def textMime : String := "text/plain"

namespace Resource

def all : List Resource :=
  [.editorState, .selectedNode, .currentScript, .projectStructure, .projectSettings,
   .projectResources, .scenes, .currentScene, .scripts]

def uri : Resource → String
  | editorState => "godot://editor/state"
  | selectedNode => "godot://editor/selected_node"
  | currentScript => "godot://editor/current_script"
  | projectStructure => "godot://project/structure"
  | projectSettings => "godot://project/settings"
  | projectResources => "godot://project/resources"
  | scenes => "godot://scenes"
  | currentScene => "godot://scene/current"
  | scripts => "godot://scripts"

def title : Resource → String
  | editorState => "Godot Editor State"
  | selectedNode => "Godot Selected Node"
  | currentScript => "Current Script in Editor"
  | projectStructure => "Godot Project Structure"
  | projectSettings => "Godot Project Settings"
  | projectResources => "Godot Project Resources"
  | scenes => "Godot Scene List"
  | currentScene => "Godot Scene Structure"
  | scripts => "Godot Script List"

def description : Resource → String
  | editorState => "Current state of the Godot editor"
  | selectedNode => "The node currently selected in the editor"
  | currentScript => "Content of the script open in the script editor"
  | projectStructure => "Directory layout and file counts of the project"
  | projectSettings => "Project settings from project.godot"
  | projectResources => "All resources in the project, grouped by type"
  | scenes => "All scene files in the project"
  | currentScene => "Node tree of the scene open in the editor"
  | scripts => "All GDScript and C# files in the project"

def mime : Resource → String
  | currentScript => textMime
  | _ => jsonMime

def record (resource : Resource) : Value :=
  .obj [("name", .str resource.title), ("uri", .str resource.uri),
    ("description", .str resource.description), ("mimeType", .str resource.mime)]

end Resource

inductive ResourceTemplate where
  | scriptMetadata
  | scriptContent
deriving DecidableEq

namespace ResourceTemplate

def all : List ResourceTemplate := [.scriptMetadata, .scriptContent]

/-- What the URIs of a template begin with; the path follows. -/
def lead : ResourceTemplate → String
  | scriptMetadata => "godot://script/metadata/"
  | scriptContent => "godot://script/"

def title : ResourceTemplate → String
  | scriptMetadata => "Godot Script Metadata"
  | scriptContent => "Godot Script Content"

def description : ResourceTemplate → String
  | scriptMetadata => "Classes, methods and signals declared by a script"
  | scriptContent => "Content of a script by its res:// path"

def mime : ResourceTemplate → String
  | scriptMetadata => jsonMime
  | scriptContent => textMime

def record (template : ResourceTemplate) : Value :=
  .obj [("name", .str template.title), ("uriTemplate", .str (template.lead ++ "\x7bpath\x7d")),
    ("description", .str template.description), ("mimeType", .str template.mime)]

end ResourceTemplate

end EditorLink
