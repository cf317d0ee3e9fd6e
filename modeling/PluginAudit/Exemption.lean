import PluginAudit.Ecosystem.Tags
import PluginAudit.Exemption.Tables
import PluginAudit.Yaml.Decode

/-!
Exemptions: which classes and functions count as supplied by the platform, or by an ecosystem that a
plugin belongs to.
-/

namespace PluginAudit

/-- The rules that always apply, and those of each ecosystem by its tag. -/
structure Exemptions where
  global : Exemption.Rules
  ecosystems : Table Exemption.Rules
deriving DecidableEq

namespace Exemptions

open Exemption

def builtin : Exemptions :=
  ⟨platformRules.compile,
   [("elementor", elementorRules.compile), ("woocommerce", wooCommerceRules.compile)]⟩

def extend (e : Exemptions) (name : String) (rules : Rules) : Exemptions :=
  let tag := tagOf name
  let all := match Table.get? tag e.ecosystems with
    | some old => old.append rules.compile
    | none => rules.compile
  { e with ecosystems := Table.insert tag all e.ecosystems }

def tags (e : Exemptions) : Tags := Tags.ofNames e.ecosystems.names

def rulesOf (e : Exemptions) (name : String) : Rules :=
  match Table.get? (Text.lower name) e.ecosystems with
  | some rules => rules.sorted
  | none => {}

/-- The rules that always apply, names sorted; the patterns of classes are not listed. -/
def globalRules (e : Exemptions) : Rules :=
  { e.global.sorted with classPatterns := [] }

def plainName (name : String) : String := Text.dropLead "\\" name

def exemptsClass (e : Exemptions) (name : String) (detected : Tags) : Bool :=
  e.global.exemptsClass (plainName name) ||
    detected.any fun tag => (Table.get? tag e.ecosystems).any (·.exemptsClass (plainName name))

def exemptsFunction (e : Exemptions) (name : String) (detected : Tags) : Bool :=
  e.global.exemptsFunction (plainName name) ||
    detected.any fun tag => (Table.get? tag e.ecosystems).any (·.exemptsFunction (plainName name))

/-- Which of the given ecosystems lists a class by its name. -/
def classReason? (e : Exemptions) (name : String) (detected : Tags) : Option String :=
  (detected.find? fun tag => (Table.get? tag e.ecosystems).any (·.classes.contains name)).map
    fun tag => "Class '" ++ name ++ "' is provided by " ++ tag ++ " plugin dependency"

/-! ### Reading -/

def ruleParts : Yaml.Parts Rules :=
  [("classes", Yaml.part (Yaml.readList Yaml.readText) fun v r => { r with classes := v }),
   ("class_patterns", Yaml.part (Yaml.readList Yaml.readText) fun v r =>
    { r with classPatterns := v }),
   ("functions", Yaml.part (Yaml.readList Yaml.readText) fun v r => { r with functions := v }),
   ("function_patterns",
    Yaml.part (Yaml.readList Yaml.readText) fun v r => { r with functionPatterns := v })]

/-- A document of rules: those that always apply, and those of the ecosystems as they are
spelled. -/
structure Document where
  global : Rules := {}
  ecosystems : Table Rules := []

def documentParts : Yaml.Parts Document :=
  [("global", Yaml.part (Yaml.readRecord ruleParts {}) fun v d => { d with global := v }),
   ("ecosystems",
    Yaml.part (Yaml.readTable (Yaml.readRecord ruleParts {}) {}) fun v d =>
    { d with ecosystems := v })]

/-- The exemptions of a document; of two ecosystems with one tag the later counts. -/
def ofDocument (d : Document) : Exemptions :=
  ⟨d.global.compile,
   d.ecosystems.foldl (fun table (name, rules) =>
     Table.insert (Text.lower name) rules.compile table) []⟩

inductive Error where
  | parse
deriving DecidableEq

/-- The words of the reader behind a message are left out. -/
def Error.message : Error → String
  | .parse => "parse dependency exceptions"

/-- The exemptions of a document, taken from a text by a reader. -/
def load (text : List Char) (parse? : List Char → Option (Option Yaml.Node) := Yaml.parse?) :
    Except Error Exemptions :=
  match parse? text with
  | some (some n) => match Yaml.readRecord documentParts {} n with
    | some d => .ok (ofDocument (d.getD {}))
    | none => .error .parse
  | _ => .error .parse

end Exemptions

end PluginAudit
