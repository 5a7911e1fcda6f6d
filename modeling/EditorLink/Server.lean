import EditorLink.Resource.Read
import EditorLink.Tool.MigrationSchema

/-!
# The server

What agents see: one list of tools, the resources, and calls by name. The arguments of a call are
checked against the tool's schema first; a call that fails is told to the agent as an error text,
while the reading of a resource fails as such.
-/

namespace EditorLink

inductive AnyTool where
  | editor (tool : EditorTool)
  | migration (tool : MigrationTool)
deriving DecidableEq

namespace AnyTool

open Tool

def all : List AnyTool := EditorTool.all.map .editor ++ MigrationTool.all.map .migration

def name : AnyTool → String
  | editor tool => tool.name
  | migration tool => tool.name

def description : AnyTool → String
  | editor tool => tool.description
  | migration tool => tool.description

def schema : AnyTool → Schema
  | editor tool => tool.schema
  | migration tool => tool.schema

def record (tool : AnyTool) : Value :=
  .obj [("name", .str tool.name), ("description", .str tool.description),
    ("inputSchema", tool.schema.record)]

def ofName? (name : String) : Option AnyTool := all.find? (·.name == name)

/-- The exchange of a call, with the shared detector after it. -/
def call (room : Nat) (tool : AnyTool) (files : Project.Files) (detector : Project.Detector)
    (arguments : Fields) : Exchange (Except CallFault String) × Project.Detector :=
  match tool with
  | editor tool => (tool.call room arguments, detector)
  | migration tool =>
    let (result, detector) := tool.call room files detector arguments
    (pure result, detector)

end AnyTool

namespace Server

def toolList : Value := .obj [("tools", .arr (AnyTool.all.map AnyTool.record))]

def resourceList : Value := .obj [("resources", .arr (Resource.all.map Resource.record))]

def templateList : Value :=
  .obj [("resourceTemplates", .arr (ResourceTemplate.all.map ResourceTemplate.record))]

structure CallAnswer where
  text : String
  isError : Bool

def CallAnswer.ofResult : Except CallFault String → CallAnswer
  | .ok text => ⟨text, false⟩
  | .error fault => ⟨fault.message, true⟩

def CallAnswer.record (answer : CallAnswer) : Value :=
  .obj [("content", .arr [.obj [("type", .str "text"), ("text", .str answer.text)]]),
    ("isError", .bool answer.isError)]

/-- Calls a tool by its name, with the shared detector after the call. -/
def callTool (room : Nat) (files : Project.Files) (detector : Project.Detector) (name : String)
    (arguments : Fields) : Exchange CallAnswer × Project.Detector :=
  match AnyTool.ofName? name with
  | none => (pure ⟨(CallFault.unknownTool name).message, true⟩, detector)
  | some tool =>
    match tool.schema.violation? arguments with
    | some violation => (pure ⟨"Input validation error: " ++ violation.message, true⟩, detector)
    | none =>
      let (exchange, detector) := tool.call room files detector arguments
      (.ofResult <$> exchange, detector)

def contentsRecord (uri : String) (content : ResourceContent) : Value :=
  .obj [("contents", .arr [.obj [("uri", .str uri), ("mimeType", .str content.mime),
    ("text", content.content)]])]

def readResource (uri : String) : Exchange (Except CallFault Value) :=
  (Except.map (contentsRecord uri)) <$> ResourceContent.read uri.toList

end Server

end EditorLink
