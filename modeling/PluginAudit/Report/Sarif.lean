import PluginAudit.Report.Document

/-!
Reports in the Static Analysis Results Interchange Format: one run with a rule for each kind of
issue and a result for each issue, ordered by place, rule and text.
-/

namespace PluginAudit.Report.Sarif

def toolName : String := "wpfatal"

def descriptions : List (Kind × String) :=
  [(.undefinedFunction, "Call to a function that is not defined by PHP, WordPress or the plugin"),
   (.undefinedClass, "Reference to a class that is not defined by PHP, WordPress or the plugin"),
   (.classAlreadyExists, "Declaration of a class that is already loaded"),
   (.wordPressClassConflict, "Declaration of a class that WordPress core already declares"),
   (.phpClassConflict, "Declaration of a class that PHP already declares"),
   (.deprecatedPhpFeature, "Language feature deprecated in the target PHP version"),
   (.removedPhpFeature, "Language feature removed in the target PHP version"),
   (.phpVersionRequirement, "Feature or function requires a newer PHP version"),
   (.deprecatedFunction, "WordPress function deprecated in the target version"),
   (.removedFunction, "WordPress function removed in the target version"),
   (.versionRequirement, "WordPress function requires a newer WordPress version"),
   (.deprecatedHook, "WordPress hook deprecated in the target version"),
   (.syntaxError, "PHP parse error reported by php -l"),
   (.fatalSyntaxError, "PHP compile time fatal error reported by php -l"),
   (.missingSemicolon, "Statement that appears to lack a terminating semicolon"),
   (.unmatchedBrackets, "Line with unbalanced brackets"),
   (.templateMethodContextError,
     "Template calls a method on $this that may be unavailable when included elsewhere"),
   (.thisContextError, "Template uses $this, which may be unset when included elsewhere")]

/-- What the issues of a kind are; a kind that is not described stands for itself. -/
def describe (kind : Kind) : String := (descriptions.lookup kind).getD kind.code

def ruleName (kind : Kind) : String := Text.replaceChar '_' '-' (Text.lower kind.code)

def ruleId (kind : Kind) : String := toolName ++ "/" ++ ruleName kind

def rule (kind : Kind) : Json :=
  .obj ([("id", .str (ruleId kind))] ++ textMember "name" (ruleName kind) ++
    [("shortDescription", .obj [("text", .str (describe kind))]),
     ("defaultConfiguration", .obj [("level", .str "error")]),
     ("properties", .obj [("kind", .str kind.code)])])

def level (s : Severity) : String :=
  if s = .error then "error" else if s = .warning then "warning" else "note"

/-- A result: an issue of one combination of versions. -/
structure Result where
  php : String
  wp : String
  issue : Issue

namespace Result

def line (r : Result) : Nat := r.issue.finding.line.toNat

def nineDigits (n : Nat) : String :=
  String.ofList (List.replicate (9 - (Decimal.natText n).length) '0') ++ Decimal.natText n

def place (r : Result) : String := r.issue.relativePath ++ ":" ++ nineDigits r.line

def message (r : Result) : String :=
  let f := r.issue.finding
  if f.suggestion = "" then f.message else f.message ++ ". " ++ f.suggestion

def order (a b : Result) : Ordering :=
  (compare a.place b.place).then ((compare (ruleId a.issue.finding.kind)
    (ruleId b.issue.finding.kind)).then (compare a.message b.message))

def toJson (r : Result) : Json :=
  let f := r.issue.finding
  .obj [("ruleId", .str (ruleId f.kind)), ("level", .str (level f.severity)),
    ("message", .obj [("text", .str r.message)]),
    ("locations", .arr [.obj [("physicalLocation", .obj
      ([("artifactLocation", .obj
          [("uri", .str r.issue.relativePath), ("uriBaseId", .str "PLUGINROOT")])] ++
        memberUnless (r.line == 0) "region" (.obj [("startLine", .nat r.line)])))]]),
    ("partialFingerprints", .obj [("wpfatal/v1", .str r.issue.fingerprint)]),
    ("properties", .obj [("php", .str r.php), ("severity", .str f.severity.label),
      ("wp", .str r.wp)])]

end Result

def results (r : Report) : List Result :=
  (r.outcomes.items.flatMap fun o => o.issues.items.map fun i => ⟨o.php, o.wp, i⟩).mergeSort
    fun a b => (a.order b).isLE

def kinds (r : Report) : List Kind :=
  ((issuesOf r.outcomes.items).map (·.finding.kind)).eraseDups.mergeSort
    fun a b => (compare (ruleId a) (ruleId b)).isLE

def directoryUri (path : String) : String :=
  let slashed := Text.replaceChar '\\' '/' path
  let rooted := if slashed.startsWith "/" then slashed else "/" ++ slashed
  "file://" ++ (if rooted.endsWith "/" then rooted else rooted ++ "/")

def toolVersion (r : Report) : String :=
  if Text.isBlank r.schemaVersion then currentSchema else Text.trim r.schemaVersion

def run (r : Report) : Json :=
  let rules := (kinds r).map rule
  .obj ([("tool", .obj [("driver", .obj
      ([("name", .str toolName),
        ("informationUri", .str "https://github.com/ben-ranford/wpfatal"),
        ("version", .str (toolVersion r))] ++
        memberUnless rules.isEmpty "rules" (.arr rules)))])] ++
    memberUnless (Text.isBlank r.runId) "automationDetails" (.obj [("guid", .str r.runId)]) ++
    memberUnless (Text.isBlank r.pluginRoot) "originalUriBaseIds"
      (.obj [("PLUGINROOT", .obj [("uri", .str (directoryUri r.pluginRoot))])]) ++
    [("results", .arr ((results r).map Result.toJson))])

/-- The most results for which there can be room. -/
def room : Int := 3198579280803

/-- There is room for as many results as the summary counts. -/
def HasRoom (room : Int) (r : Report) : Prop :=
  0 ≤ r.summary.totalFindings ∧ r.summary.totalFindings ≤ room

instance (room : Int) (r : Report) : Decidable (HasRoom room r) :=
  inferInstanceAs (Decidable (_ ∧ _))

def document (r : Report) : Json :=
  .obj [("$schema", .str "https://json.schemastore.org/sarif-2.1.0.json"),
    ("version", .str "2.1.0"),
    ("runs", .arr [run r])]

end PluginAudit.Report.Sarif
