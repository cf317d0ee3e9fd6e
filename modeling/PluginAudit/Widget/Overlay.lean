import PluginAudit.FileTree.Resolve
import PluginAudit.Moment
import PluginAudit.Widget.Rules

/-!
Documents of widget rules. A document has to fit a schema, in which member names are exact; then it
is merged onto the rules of a run, where member names are matched up to letter case. The merged
rules can be exported as such a document.
-/

namespace PluginAudit.WidgetRules

open Widget

/-! ### Schema -/

/-- Whether a document is an object whose members, the last of each name, pass a test. -/
def objectFits (fits : String → Json → Bool) : Json → Bool
  | .obj members => (Table.ofPairs members).all fun (name, value) => fits name value
  | _ => false

def isText : Json → Bool
  | .str _ => true
  | _ => false

def isOneOf (texts : List String) : Json → Bool
  | .str s => texts.contains s
  | _ => false

def isTexts : Json → Bool
  | .arr items => items.all isText
  | _ => false

/-- Whether a member of a rule fits; other members are refused. -/
def ruleMemberFits (name : String) (value : Json) : Bool :=
  match name with
  | "status" => isOneOf ["exclude", "temporary_exclude", "include"] value
  | "reason" => isText value
  | "methods" => isTexts value
  | "error_types" => isTexts value
  | "review_date" => isText value
  | "future_proof" => match value with
    | .bool _ => true
    | _ => false
  | _ => false

/-- Whether a member of the document fits; members without meaning are allowed. -/
def memberFits (name : String) (value : Json) : Bool :=
  match name with
  | "reporting_mode" => isOneOf ["fatal_only", "all_errors", "debug_mode"] value
  | "last_updated" => isText value
  | "widget_exclusions" =>
    objectFits
      (fun _ widgets => objectFits (fun _ rule => objectFits ruleMemberFits rule) widgets) value
  | _ => true

def fitsSchema (j : Json) : Bool := objectFits memberFits j

/-! ### Overlays -/

inductive OverlayError where
  | malformed
  | invalid
  | unreadable
deriving DecidableEq

/-- The words of the reader and of the schema behind a message are left out. -/
def OverlayError.message : OverlayError → String
  | .malformed => "validate widget config"
  | .invalid => "invalid widget config"
  | .unreadable => "parse widget config"

/-- Checks a text against the schema; what follows its first value is not looked at. -/
def validate (text : List Char) : Except OverlayError Unit :=
  match Json.readFirst text with
  | none => .error .malformed
  | some (j, _) => if fitsSchema j then .ok () else .error .invalid

structure Overlay where
  rules : Option (Table (Option (Table RulePatch))) := none
  mode : Option Mode := none
deriving DecidableEq

def Overlay.parts : Json.Parts Overlay :=
  [("widget_exclusions", Json.through (·.rules) (fun v o => { o with rules := v })
      (Json.intoTable none (Json.intoTable {} RulePatch.into))),
   ("reporting_mode",
    Json.through (·.mode.map (·.word)) (fun v o => { o with mode := v.map Mode.mk })
      (Json.intoOption "" Json.intoText))]

/-- An order in which the ecosystems of a document are taken. It is not fixed, and may be another
one each time. -/
structure Order where
  of : List (String × Option (Table RulePatch)) → List (String × Option (Table RulePatch))
  perm : ∀ entries, (of entries).Perm entries

def Order.byName : Order := ⟨id, fun _ => .refl _⟩

def mergeWidgets (table : RuleTable) (ecosystem : String) (patches : Table RulePatch) : RuleTable :=
  let tag := Text.lower ecosystem
  let old := (Table.get? tag table).getD []
  Table.insert tag (patches.foldl (fun widgets (widget, patch) =>
    Table.insert widget (Rule.patch (Table.get? widget widgets) patch) widgets) old) table

def merge (w : WidgetRules) (o : Overlay) (order : Order := .byName) : WidgetRules :=
  { w with
    rules := (order.of (o.rules.getD [])).foldl (fun table (ecosystem, patches) =>
      mergeWidgets table ecosystem (patches.getD [])) w.rules
    mode := o.mode.getD w.mode }

/-- What a text says, once it has passed the schema. -/
def readOverlay (text : List Char) : Except OverlayError Overlay :=
  match validate text with
  | .error e => .error e
  | .ok _ => match Json.parse? text with
    | none => .error .unreadable
    | some j => match Json.intoRecord false Overlay.parts j {} with
      | some o => .ok o
      | none => .error .unreadable

/-- Rules with the document of a text merged onto them. -/
def withOverlay (w : WidgetRules) (text : List Char) (order : Order := .byName) :
    Except OverlayError WidgetRules :=
  (readOverlay text).map (w.merge · order)

/-- The built-in rules with the document at an absolute path. A document that is missing or refused
is left out. -/
def load (tree : Node) (path : String) (order : Order := .byName) : WidgetRules :=
  match FileTree.read tree path with
  | .error _ => builtin
  | .ok content => match builtin.withOverlay (Text.decodeBytes content) order with
    | .ok w => w
    | .error _ => builtin

def toDocument (w : WidgetRules) (now : Moment) : Json :=
  .obj [("widget_exclusions", .obj (w.rules.map fun (tag, widgets) =>
      (tag, .obj (widgets.map fun (widget, rule) => (widget, rule.toJson))))),
    ("reporting_mode", .str w.mode.word), ("last_updated", .str now.plainText)]

/-- The text of the configured rules, as of a moment. -/
def exported (w : WidgetRules) (now : Moment) : String := (w.toDocument now).pretty ++ "\n"

end PluginAudit.WidgetRules
