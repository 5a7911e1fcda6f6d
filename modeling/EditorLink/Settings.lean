import EditorLink.Form.Checked
import EditorLink.Number.Reading
import EditorLink.Project.Detector
import EditorLink.Session.Config
import EditorLink.Text.Quoted

/-!
# Settings

The settings of a bridge come from environment variables. A variable that is absent or empty leaves
its setting at the default. Settings are given only when every variable is acceptable; otherwise
each bad one is told once, in the order of the settings.
-/

namespace EditorLink

structure Settings where
  url : String := "ws://localhost:9081"
  protocol : String := "json"
  commandTimeout : Double := .ofInt 20
  connectTimeout : Double := .ofInt 20
  maxRetries : Int := 3
  retryDelay : Double := .ofInt 2
  autoConnect : Bool := true
  projectPath : String := ""
  logLevel : String := "INFO"

namespace Settings

abbrev Environment := List (String × String)

/-- The text of a variable, unless it is absent or empty. -/
def given? (environment : Environment) (key : String) : Option (List Char) :=
  match environment.lookup key with
  | some text => if text = "" then none else some text.toList
  | none => none

/-! ## Checks -/

open Form

abbrev TextCheck (α : Type) := List Char → Except Problem α

def urlOf : TextCheck String := fun cs =>
  if "ws://".toList.isPrefixOf cs || "wss://".toList.isPrefixOf cs then .ok (String.ofList cs)
  else .error (.refused
    ("expected a ws:// or wss:// URL, got " ++ Text.quoted (String.ofList cs)))

section

variable (reader : Number.Reader)

def numberOf : TextCheck Double := fun cs =>
  match reader.double? cs with
  | some x => .ok x
  | none => .error .unreadableNumber

def positiveOf : TextCheck Double := fun cs => do
  let x ← numberOf reader cs
  if x.isPositive then .ok x else .error .notPositive

def nonnegativeOf : TextCheck Double := fun cs => do
  let x ← numberOf reader cs
  if x.isNonnegative then .ok x else .error .negative

def countOf : TextCheck Int := fun cs =>
  match reader.whole cs with
  | .ok n => if n < 0 then .error .negative else .ok n
  | .error .unreadable => .error .unreadableWhole
  | .error .oversized => .error .oversizedWhole

end

def logLevels : List String :=
  ["CRITICAL", "FATAL", "ERROR", "WARN", "WARNING", "INFO", "DEBUG", "NOTSET"]

/-- The capital of a letter that a level can have; dotless I and long S have ASCII capitals. -/
def levelCapital (c : Char) : Char :=
  if c = 'ı' then 'I' else if c = 'ſ' then 'S' else c.toUpper

def logLevelOf : TextCheck String := fun cs =>
  let level := String.ofList (cs.map levelCapital)
  if level ∈ logLevels then .ok level
  else .error (.refused ("unknown log level " ++ Text.quoted (String.ofList cs)))

def switchWords : List String := ["1", "true", "yes", "on"]

/-- Any text but the words for yes switches off. -/
def switchOf (cs : List Char) : Bool :=
  String.ofList ((Text.trim cs).map Char.toLower) ∈ switchWords

/-! ## Reading -/

/-- Checks a variable for a setting, or takes the setting's default. -/
def setting {α : Type} (environment : Environment) (key field : String) (check : TextCheck α)
    (default : α) : Checked α :=
  match given? environment key with
  | some cs => .ofField field (check cs)
  | none => .accepted default

/-- The settings of an environment, whose numbers are those that the reader reads. -/
def ofEnvironment (reader : Number.Reader) (environment : Environment) : Checked Settings :=
  let base : Settings := {}
  Settings.mk
    <$> setting environment "GODOT_MCP_URL" "url" urlOf base.url
    <*> setting environment "GODOT_MCP_PROTOCOL" "protocol" (fun cs => .ok (String.ofList cs))
      base.protocol
    <*> setting environment "GODOT_MCP_TIMEOUT" "command_timeout" (positiveOf reader)
      base.commandTimeout
    <*> setting environment "GODOT_MCP_CONNECT_TIMEOUT" "connect_timeout" (positiveOf reader)
      base.connectTimeout
    <*> setting environment "GODOT_MCP_MAX_RETRIES" "max_retries" (countOf reader) base.maxRetries
    <*> setting environment "GODOT_MCP_RETRY_DELAY" "retry_delay" (nonnegativeOf reader)
      base.retryDelay
    <*> setting environment "GODOT_MCP_AUTO_CONNECT" "auto_connect" (fun cs => .ok (switchOf cs))
      base.autoConnect
    <*> .accepted ((environment.lookup "GODOT_PROJECT_PATH").getD base.projectPath)
    <*> setting environment "GODOT_MCP_LOG_LEVEL" "log_level" logLevelOf base.logLevel

/-! ## Use -/

def sessionConfig (settings : Settings) : Session.Config where
  url := settings.url
  protocol := settings.protocol
  timeout := .float settings.commandTimeout
  connectTimeout := .float settings.connectTimeout
  maxRetries := settings.maxRetries
  retryDelay := .float settings.retryDelay
  autoConnect := settings.autoConnect

def detector (settings : Settings) (workingDirectory : Project.Path) : Project.Detector :=
  .ofText workingDirectory settings.projectPath.toList

end Settings

end EditorLink
