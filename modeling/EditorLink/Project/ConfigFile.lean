import EditorLink.Number.Integer
import EditorLink.Project.Release

/-!
# Project files

A project file is read line by line for a few keys. `versionInfo` depends on the last accepted
`config_version` and the last `config/features` line alone; `config` takes name, description and
version from the last line of each, in any section, and the autoloads from the `autoload` section.
-/

namespace EditorLink.Project

structure VersionInfo where
  release : Release
  features : List Tag
  configPath : String
deriving DecidableEq

structure Config where
  name : List Char := []
  description : List Char := []
  version : List Char := "1.0".toList
  autoloads : List (List Char × List Char) := []

/-! ## Values of keys -/

def unquoted (cs : List Char) : List Char := Text.trimBoth (· == '"') cs

/-- The value after a key's equals sign, without blanks and quotes around it. -/
def valueOf (cs : List Char) : List Char := unquoted (Text.trim cs)

/-- What stands between the first opening parenthesis and the closing one after it. -/
def parenthesized? (cs : List Char) : Option (List Char) :=
  match cs.dropWhile (· != '(') with
  | [] => none
  | _ :: rest => (Text.splitFirst? ')' rest).map (·.1)

/-- The tags of a features line; empty ones are dropped. -/
def tagsOf (cs : List Char) : List Tag :=
  match parenthesized? cs with
  | none => []
  | some inner => ((inner.splitOn ',').map valueOf).filter (!·.isEmpty)

/-! ## Version -/

structure VersionKeys where
  configVersion : Option Int := none
  tags : List Tag := []

/-- Takes a trimmed line into account. A configuration version that is no number is passed over. -/
def VersionKeys.take (keys : VersionKeys) (line : List Char) : VersionKeys :=
  match Text.after? "config_version=".toList line with
  | some value =>
    match Number.readInteger? (valueOf value) with
    | some n => { keys with configVersion := some n }
    | none => keys
  | none =>
    match Text.after? "config/features=".toList line with
    | some value => { keys with tags := tagsOf value }
    | none => keys

def trimmedLines (content : List Char) : List (List Char) := (Text.lines content).map Text.trim

def versionKeys (content : List Char) : VersionKeys :=
  (trimmedLines content).foldl VersionKeys.take {}

/-- The features are the tags but for `4.5`, which only tells the release. -/
def versionInfo (content : List Char) (configPath : String) : VersionInfo :=
  let keys := versionKeys content
  { release := releaseOf keys.configVersion keys.tags
    features := keys.tags.filter (· != "4.5".toList)
    configPath }

/-! ## Configuration -/

/-- Gives a key its value; a key that is already there keeps its place. -/
def putAutoload (key path : List Char) :
    List (List Char × List Char) → List (List Char × List Char)
  | [] => [(key, path)]
  | entry :: entries =>
    if entry.1 = key then (key, path) :: entries else entry :: putAutoload key path entries

/-- The name of the section that a trimmed line opens. -/
def sectionName? (line : List Char) : Option (List Char) :=
  if "[".toList.isPrefixOf line && Text.endsWith "]".toList line then
    some (line.drop 1).dropLast
  else none

/-- What a trimmed line says. -/
inductive Entry where
  | header (name : List Char)
  | name (value : List Char)
  | description (value : List Char)
  | version (value : List Char)
  | pair (key value : List Char)
  | other

/-- A pair is a line with an equals sign that is no comment. -/
def pairOf (line : List Char) : Entry :=
  if ";".toList.isPrefixOf line then .other
  else
    match Text.splitFirst? '=' line with
    | some (key, value) => .pair (Text.trim key) ((valueOf value).dropWhile (· == '*'))
    | none => .other

def entryOf (line : List Char) : Entry :=
  match sectionName? line with
  | some name => .header name
  | none =>
    match Text.after? "config/name=".toList line with
    | some value => .name (valueOf value)
    | none =>
      match Text.after? "config/description=".toList line with
      | some value => .description (valueOf value)
      | none =>
        match (Text.after? "config/version=".toList line).orElse fun _ =>
            Text.after? "config/display_version=".toList line with
        | some value => .version (valueOf value)
        | none => pairOf line

structure ConfigReading where
  openSection : List Char := []
  config : Config := {}

/-- An empty version counts as `1.0`; pairs count in the `autoload` section alone. -/
def ConfigReading.take (reading : ConfigReading) (line : List Char) : ConfigReading :=
  let config := reading.config
  match entryOf line with
  | .header name => { reading with openSection := name }
  | .name value => { reading with config := { config with name := value } }
  | .description value => { reading with config := { config with description := value } }
  | .version value =>
    let version := if value.isEmpty then "1.0".toList else value
    { reading with config := { config with version } }
  | .pair key value =>
    if reading.openSection = "autoload".toList then
      { reading with config := { config with autoloads := putAutoload key value config.autoloads } }
    else reading
  | .other => reading

def configOf (content : List Char) : Config :=
  ((trimmedLines content).foldl ConfigReading.take {}).config

/-! ## Records -/

def VersionInfo.record (info : VersionInfo) : Value :=
  .obj [("major", .int info.release.major), ("minor", .int info.release.minor),
    ("patch", .int 0), ("version_string", .str info.release.text),
    ("features", .strings (info.features.map String.ofList)),
    ("config_path", .str info.configPath)]

def Config.record (config : Config) (info : VersionInfo) : Value :=
  .obj [("name", .str (String.ofList config.name)),
    ("description", .str (String.ofList config.description)),
    ("version", .str (String.ofList config.version)),
    ("godot_version", info.record),
    ("autoloads", .obj (config.autoloads.map fun (key, path) =>
      (String.ofList key, .str (String.ofList path))))]

end EditorLink.Project
