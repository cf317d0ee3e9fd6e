import PluginAudit.FileTree.Confined
import PluginAudit.Settings.Draft
import PluginAudit.Toml.Reader

/-!
Finding and reading the settings of a plugin. A document may be named; else the first of some names
counts that is there.
-/

namespace PluginAudit.Settings

def candidates : List String := [".wpfatal.yml", ".wpfatal.yaml", ".wpfatal.toml", "wpfatal.json"]

inductive Format where
  | json | toml | yaml
deriving DecidableEq, Repr

def Format.name : Format → String
  | .json => "JSON"
  | .toml => "TOML"
  | .yaml => "YAML"

def Format.ofPath (path : String) : Format :=
  match Text.lower (Path.extension path) with
  | ".json" => .json
  | ".toml" => .toml
  | _ => .yaml

inductive LoadError where
  | notFound (path : String)
  | unreachable (path : String) (cause : FsError)
  | unreadable (path : String) (cause : ReadError)
  | malformed (path : String) (format : Format)
  | several (path : String)
  | invalid (path : String) (cause : Error)
deriving DecidableEq

def LoadError.message : LoadError → String
  | .notFound path => "config file not found: " ++ path
  | .unreachable path cause => "read config file " ++ path ++ ": " ++ cause.message
  | .unreadable path cause => "read config file " ++ path ++ ": " ++ cause.message
  | .malformed path format =>
    "parse config file " ++ path ++ ": invalid " ++ format.name ++ " config"
  | .several path => "parse config file " ++ path ++ ": invalid JSON config: multiple JSON values"
  | .invalid path cause => "parse config file " ++ path ++ ": " ++ cause.message

def firstThere (tree : Node) : List String → Except LoadError (Option String)
  | [] => .ok none
  | path :: rest =>
    match FileTree.stat tree path with
    | .ok _ => .ok (some path)
    | .error .notFound => firstThere tree rest
    | .error cause => .error (.unreachable path ⟨"stat", path, cause⟩)

/-- The document for a plugin: the one that is named, or the first candidate. -/
def locate (tree : Node) (root explicit : String) : Except LoadError (Option String) :=
  if explicit = "" then firstThere tree (candidates.map fun name => Path.join [root, name])
  else
    let path := if Path.isAbsolute explicit then Path.clean explicit else Path.join [root, explicit]
    match FileTree.stat tree path with
    | .ok _ => .ok (some path)
    | .error .notFound => .error (.notFound path)
    | .error cause => .error (.unreachable path ⟨"stat", path, cause⟩)

def isUnder (root path : String) : Bool :=
  match Path.relative? root path with
  | some relative => !Path.leaves relative
  | none => false

/-- The settings of a JSON document: the first value of the text counts. Something else may follow
only if it starts with a closing bracket. -/
def draftOfJson (path : String) (text : List Char) : Except LoadError Draft :=
  match Json.readFirst text with
  | none => .error (.malformed path .json)
  | some (j, rest) =>
    match Draft.shape.ofJson? {} j with
    | none => .error (.malformed path .json)
    | some draft =>
      match Json.skipGap rest with
      | [] | ']' :: _ | '\x7d' :: _ => .ok draft
      | _ => .error (.several path)

def draftOf (path : String) (content : Bytes) : Except LoadError Draft :=
  let format := Format.ofPath path
  let text := Text.decodeBytes content
  let valid := Text.validBytes content
  let orMalformed (d : Option Draft) : Except LoadError Draft :=
    match d with
    | some d => .ok d
    | none => .error (.malformed path format)
  match format with
  | .json => draftOfJson path text
  | .toml =>
    orMalformed (if valid then (Toml.parse? text).bind (Draft.shape.ofToml? {}) else none)
  | .yaml =>
    orMalformed (if valid then (Yaml.parse? text).bind (Draft.shape.ofYaml? {}) else none)

/-- Settings that were loaded: the layer, what it makes of the defaults, and where it comes from. -/
structure Loaded where
  layer : Layer := {}
  settings : Settings := {}
  path : String := ""

/-- Loads the settings of a plugin; without a document they are the defaults. -/
def load (tree : Node) (here root explicit : String) : Except LoadError Loaded := do
  let root := Path.absolute here root
  let explicit := Text.trim explicit
  match ← locate tree root explicit with
  | none => return {}
  | some path =>
    let content ← (if explicit = "" || isUnder root path then FileTree.readUnder tree here root path
      else FileTree.readBeside tree here path).mapError (.unreadable path)
    let draft ← draftOf path content
    let layer ← (draft.toLayer (Path.dir path)).mapError (.invalid path)
    layer.validate.mapError (.invalid path)
    let settings := layer.applyTo {}
    settings.validate.mapError (.invalid path)
    return ⟨layer, settings, path⟩

end PluginAudit.Settings
