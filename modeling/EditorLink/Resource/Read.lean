import EditorLink.Exchange.Basic
import EditorLink.Json.Writer
import EditorLink.Resource.Catalog
import EditorLink.Text.Basic
import EditorLink.Text.Percent

/-!
# Reading resources

Each resource asks the editor one command. Most give its result as JSON; the script resources give
the text of a script, and the lists of files sort what the editor names. A URI belongs to the
resource that it equals up to slashes at its end, else to the first template whose lead it begins
with and whose path is not empty.
-/

namespace EditorLink

/-- What a resource gives; a script's content is what the editor sent for it. -/
structure ResourceContent where
  content : Value
  mime : String

namespace Exchange

/-- Asks one command and reads its result. -/
def asking (name : String) (params : Fields) (read : Value → Except CallFault Value) :
    Exchange (Except CallFault Value) := do
  match ← send ⟨name, params⟩ with
  | .ok result => return read result
  | .error failure => return .error failure.fault

theorem sent_asking (editor : Editor) (name : String) (params : Fields)
    (read : Value → Except CallFault Value) :
    (asking name params read).sent editor = [⟨name, params⟩] := by
  rw [asking, sent_bind, sent_send, result_send]
  cases editor ⟨name, params⟩ <;> rfl

theorem result_asking (editor : Editor) (name : String) (params : Fields)
    (read : Value → Except CallFault Value) :
    (asking name params read).result editor =
      match editor ⟨name, params⟩ with
      | .ok result => read result
      | .error failure => .error failure.fault := by
  rw [asking, result_bind, result_send]
  cases editor ⟨name, params⟩ <;> rfl

/-- Asks one command and gives its result as JSON text. -/
def forwarding (name : String) (params : Fields) : Exchange (Except CallFault Value) :=
  asking name params fun result => .ok (.str result.jsonText)

end Exchange

namespace Resource

/-- The fields of a result, where no result counts as an empty one. -/
def resultFields (result : Value) : Except CallFault Fields :=
  (result.orElse (.obj [])).fieldsFor "get"

/-- The text of the open script, empty when none is open. -/
def openScript (result : Value) : Except CallFault Value := do
  let fields ← resultFields result
  let content := Fields.getOrNull fields "content"
  if (Fields.getOrNull fields "script_found").isTruthy && content.isTruthy then return content
  else return .str ""

def namedFiles (result : Value) : Except CallFault (List Value) := do
  let fields ← resultFields result
  ((Fields.getOrNull fields "files").orElse (.arr [])).iterated

def hasEnding (ending : String) : Value → Except CallFault Bool
  | .str s => .ok (Text.endsWith ending.toList s.toList)
  | value => .error (.lacksMember value.kindName "endswith")

def sceneList (result : Value) : Except CallFault Value := do
  let files ← namedFiles result
  return .str (Value.obj [("scenes", .arr files), ("count", .int files.length)]).jsonText

def scriptList (result : Value) : Except CallFault Value := do
  let files ← namedFiles result
  let own ← files.filterM (hasEnding ".gd")
  let other ← files.filterM (hasEnding ".cs")
  return .str (Value.obj [("scripts", .arr files), ("count", .int files.length),
    ("gdscripts", .arr own), ("csharp_scripts", .arr other)]).jsonText

def extensions (endings : List String) : Fields := [("extensions", .strings endings)]

def load : Resource → Exchange (Except CallFault Value)
  | editorState => .forwarding "get_editor_state" []
  | selectedNode => .forwarding "get_selected_node" []
  | currentScript => .asking "get_current_script" [] openScript
  | projectStructure => .forwarding "get_project_structure" []
  | projectSettings => .forwarding "get_project_settings" []
  | projectResources => .forwarding "list_project_resources" []
  | scenes => .asking "list_project_files" (extensions [".tscn", ".scn"]) sceneList
  | currentScene => .forwarding "get_current_scene_structure" []
  | scripts => .asking "list_project_files" (extensions [".gd", ".cs"]) scriptList

/-- The resource that a URI names. -/
def ofUri? (uri : List Char) : Option Resource :=
  all.find? fun resource => resource.uri.toList == Text.dropRightWhile (· == '/') uri

end Resource

namespace ResourceTemplate

def scriptText (result : Value) : Except CallFault Value := do
  let fields ← Resource.resultFields result
  return (Fields.get? fields "content").getD (.str "")

def load (template : ResourceTemplate) (path : List Char) : Exchange (Except CallFault Value) :=
  let path := Value.str (String.ofList path)
  match template with
  | scriptMetadata => .forwarding "get_script_metadata" [("path", path)]
  | scriptContent => .asking "get_script" [("script_path", path)] scriptText

/-- The path that a URI of the template names, if there is one. -/
def path? (template : ResourceTemplate) (uri : List Char) : Option (List Char) := do
  let rest ← Text.after? template.lead.toList uri
  let path := Text.percentDecode rest
  if path.isEmpty then none else some path

/-- The first template that a URI belongs to, with the path. -/
def ofUri? (uri : List Char) : Option (ResourceTemplate × List Char) :=
  all.findSome? fun template => (template.path? uri).map fun path => (template, path)

end ResourceTemplate

namespace ResourceContent

def ofMime (mime : String) (content : Except CallFault Value) : Except CallFault ResourceContent :=
  content.map fun content => ⟨content, mime⟩

def read (uri : List Char) : Exchange (Except CallFault ResourceContent) :=
  match Resource.ofUri? uri with
  | some resource => ofMime resource.mime <$> resource.load
  | none =>
    match ResourceTemplate.ofUri? uri with
    | some (template, path) => ofMime template.mime <$> template.load path
    | none => return .error (.unknownResource (String.ofList uri))

end ResourceContent

end EditorLink
