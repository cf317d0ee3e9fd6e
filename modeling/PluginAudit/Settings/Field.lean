import PluginAudit.Json.Decode
import PluginAudit.Toml.Value
import PluginAudit.Yaml.Decode

/-!
The fields of a record that a document gives, described once and read from JSON, YAML and TOML.
Fields stand on the top level or in sections. Names that are not described are refused.
-/

namespace PluginAudit.Settings

inductive Field (α : Type) where
  | texts (put : Option (List String) → α → α)
  | text (put : Option String → α → α)
  | flag (put : Option Bool → α → α)
  | whole (put : Option Int → α → α)
  | real (put : Option Double → α → α)

structure Shape (α : Type) where
  fields : List (String × Field α)
  sections : List (String × List (String × Field α))

/-! ### JSON -/

/-- Reads a field that null takes away. -/
def Field.ofJson : Field α → Json.Decoder α
  | .texts put => fun j a => (Json.intoList "" Json.intoText j none).map (put · a)
  | .text put => fun j a => (Json.intoOption "" Json.intoText j none).map (put · a)
  | .flag put => fun j a => (Json.intoOption false Json.intoBool j none).map (put · a)
  | .whole put => fun j a => (Json.intoOption 0 Json.intoInt j none).map (put · a)
  | .real put => fun j a => (Json.intoOption ⟨0⟩ Json.intoDouble j none).map (put · a)

def Shape.jsonParts (s : Shape α) : Json.Parts α :=
  s.fields.map (fun (name, f) => (name, f.ofJson)) ++
    s.sections.map fun (name, fields) =>
      (name, Json.intoRecord true (fields.map fun (name, f) => (name, f.ofJson)))

def Shape.ofJson? (s : Shape α) (zero : α) (j : Json) : Option α :=
  Json.intoRecord true s.jsonParts j zero

/-! ### YAML -/

/-- Reads a field that null leaves as it is. -/
def Field.ofYaml : Field α → Yaml.Node → α → Option α
  | .texts put => Yaml.part (Yaml.readList Yaml.readText) fun v a => put (some v) a
  | .text put => Yaml.part Yaml.readText fun v a => put (some v) a
  | .flag put => Yaml.part Yaml.readBool fun v a => put (some v) a
  | .whole put => Yaml.part Yaml.readInt fun v a => put (some v) a
  | .real put => Yaml.part Yaml.readDouble fun v a => put (some v) a

def sectionOfYaml (fields : List (String × Field α)) (n : Yaml.Node) (a : α) : Option α :=
  match Yaml.readRecord (fields.map fun (name, f) => (name, f.ofYaml)) a n with
  | none => none
  | some none => some a
  | some (some a) => some a

/-- Reads a record from a YAML document; without a document it stays as it is. -/
def Shape.ofYaml? (s : Shape α) (zero : α) : Option Yaml.Node → Option α
  | none => some zero
  | some n =>
    let parts := s.fields.map (fun (name, f) => (name, f.ofYaml)) ++
      s.sections.map fun (name, fields) => (name, sectionOfYaml fields)
    (Yaml.readRecord parts zero n).map (·.getD zero)

/-! ### TOML -/

def tomlTexts? (items : List Toml.Value) : Option (List String) :=
  items.mapM fun v => match v with
    | .text s => some s
    | _ => none

def Field.ofToml : Field α → Toml.Value → α → Option α
  | .texts put, .list items, a => (tomlTexts? items).map fun v => put (some v) a
  | .text put, .text s, a => some (put (some s) a)
  | .flag put, .flag b, a => some (put (some b) a)
  | .whole put, .whole n, a => some (put (some n) a)
  | .real put, .real x, a => some (put (some x) a)
  | .real put, .whole n, a => some (put (some (.ofInt n)) a)
  | _, _, _ => none

/-- What a name stands for: exactly, or else in lower case. -/
def named? (entries : List (String × β)) (name : String) : Option β :=
  (entries.lookup name).or (entries.lookup (Text.lower name))

def assignField? (fields : List (String × Field α)) (name : String) (v : Toml.Value) (a : α) :
    Option α :=
  (named? fields name).bind fun f => f.ofToml v a

def Shape.assign? (s : Shape α) (path : List String) (v : Toml.Value) (a : α) : Option α :=
  match path with
  | [name] =>
    match named? s.sections name, v with
    | some fields, .table entries =>
      entries.foldlM (fun a (path, v) => match path with
        | [name] => assignField? fields name v a
        | _ => none) a
    | some _, _ => none
    | none, v => assignField? s.fields name v a
  | [name, field] => (named? s.sections name).bind fun fields => assignField? fields field v a
  | _ => none

/-- Puts the statements of a document into a record, given the open table. -/
def Shape.ofStatements? (s : Shape α) : List String → List Toml.Statement → α → Option α
  | _, [], a => some a
  | _, .table path :: rest, a =>
    match path with
    | [name] => if (named? s.sections name).isSome then s.ofStatements? path rest a else none
    | _ => none
  | _, .item _ :: _, _ => none
  | current, .assign key v :: rest, a =>
    match s.assign? (current ++ key) v a with
    | some a => s.ofStatements? current rest a
    | none => none

def Shape.ofToml? (s : Shape α) (zero : α) (statements : List Toml.Statement) : Option α :=
  s.ofStatements? [] statements zero

end PluginAudit.Settings
