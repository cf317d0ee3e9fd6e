import PluginAudit.Widget.Rule

/-!
The widget rules of a run: configured rules and temporary ones, by ecosystem and widget, and the
mode of reporting. Temporary rules come first.
-/

namespace PluginAudit

/-- Rules by the tag of an ecosystem and the name of a widget. -/
abbrev Widget.RuleTable := Table (Table Widget.Rule)

structure WidgetRules where
  rules : Widget.RuleTable
  temporary : Widget.RuleTable := []
  mode : Mode := .fatalOnly
deriving DecidableEq

namespace WidgetRules

open Widget

def templateKinds : List String := ["TEMPLATE_METHOD_CONTEXT_ERROR", "THIS_CONTEXT_ERROR"]

def carousel : Rule where
  status := .exclude
  reason := "Carousel widgets typically do not have load more functionality"
  methods := [wildcard]
  kinds := templateKinds

def loadsMore : Rule where
  status := .keep
  reason := "Has load more functionality, errors are legitimate"
  futureProof := true

def builtinTable : RuleTable :=
  [("elementor",
    [("content_timeline",
      { status := .temporaryExclude
        reason := "No load more functionality currently, but may be added in future"
        methods := [wildcard]
        kinds := templateKinds
        reviewDate := "2024-12-01"
        futureProof := true }),
     ("ld_courses",
      { status := .exclude
        reason := "LearnDash course widgets typically use pagination, not AJAX load more"
        methods := [wildcard]
        kinds := templateKinds.reverse }),
     ("logo_carousel", carousel),
     ("media_carousel", carousel),
     ("post_carousel", carousel),
     ("post_grid", loadsMore),
     ("post_list", loadsMore),
     ("product_carousel", carousel),
     ("testimonial_carousel", carousel),
     ("woo_account_dashboard",
      { status := .exclude
        reason := "Account dashboard widgets typically do not have load more functionality"
        methods := [wildcard]
        kinds := templateKinds.reverse })])]

def builtin : WidgetRules := ⟨builtinTable, [], .fatalOnly⟩

def ruleIn? (table : RuleTable) (ecosystem widget : String) : Option Rule :=
  (Table.get? (Text.lower ecosystem) table).bind (Table.get? widget)

def putRule (table : RuleTable) (ecosystem widget : String) (rule : Rule) : RuleTable :=
  let tag := Text.lower ecosystem
  Table.insert tag (Table.insert widget rule ((Table.get? tag table).getD [])) table

/-- Another mode; an unknown one changes nothing. -/
def withMode (w : WidgetRules) (mode : Mode) : WidgetRules :=
  if mode.isKnown then { w with mode } else w

/-- Adds a temporary rule, which comes before the configured one of the same widget. -/
def withTemporary (w : WidgetRules) (ecosystem widget : String) (rule : Rule) : WidgetRules :=
  let rule := { rule with
    status := if rule.status.word = "" then .temporaryExclude else rule.status
    reason := if rule.reason = "" then "Temporary exclusion" else rule.reason }
  { w with temporary := putRule w.temporary ecosystem widget rule }

def rule? (w : WidgetRules) (ecosystem widget : String) : Option Rule :=
  match ruleIn? w.temporary ecosystem widget with
  | some rule => some rule
  | none => ruleIn? w.rules ecosystem widget

def decide (w : WidgetRules) (ecosystem widget method kind : String) : Decision :=
  match w.rule? ecosystem widget with
  | none => ⟨false, "", .unknown, false⟩
  | some r =>
    ⟨r.status != .keep && r.covers method kind, r.reason, r.status, r.futureProof⟩

/-- Whether a finding with a decision is reported in the mode of the run. -/
def shows (w : WidgetRules) (d : Decision) : Bool :=
  w.mode == .allErrors || w.mode == .debug || !d.exclude

/-! ### Counts -/

structure Stats where
  ecosystems : Nat
  widgets : Nat
  excluded : Nat
  temporary : Nat
  futureProof : Nat
deriving DecidableEq, Repr

def stats (w : WidgetRules) : Stats :=
  let all := w.rules.flatMap fun (_, widgets) => widgets.map (·.2)
  { ecosystems := w.rules.length
    widgets := all.length
    excluded := all.countP fun r => r.status == .exclude || r.status == .temporaryExclude
    temporary := all.countP fun r => r.status == .temporaryExclude
    futureProof := all.countP (·.futureProof) }

def Stats.members (s : Stats) : List (String × Json) :=
  [("total_ecosystems", .nat s.ecosystems), ("total_widgets", .nat s.widgets),
   ("excluded_widgets", .nat s.excluded), ("temporary_exclusions", .nat s.temporary),
   ("future_proof_widgets", .nat s.futureProof)]

def Stats.toJson (s : Stats) : Json := .obj s.members

end WidgetRules

end PluginAudit
