import PluginAudit.Report.Style
import PluginAudit.Report.Table

/-!
Reports for people: the issues of each combination by kind, then a summary with counts and advice.
-/

namespace PluginAudit

def Severity.style (s : Severity) : Style :=
  if s = .error then .fail else if s = .warning then .warning else .hint

def Severity.icon (s : Severity) : String :=
  if s = .error then "🔴" else if s = .warning then "🟡" else if s = .info then "🔵" else "⚪"

def Value.isScalar : Value → Bool
  | .text _ | .number _ | .bool _ => true
  | _ => false

namespace Report

def contextText (context : Table Value) : String :=
  ", ".intercalate ((context.filter (·.2.isScalar)).map fun (name, value) =>
    name ++ ": " ++ value.display)

def styledLine (color : Bool) (indent : String) (style : Style) (s : String) : String :=
  indent ++ style.paint color s ++ "\n"

def issueLines (color : Bool) (i : Issue) : String :=
  let f := i.finding
  let detail := styledLine color "        "
  "      " ++ f.severity.icon ++ " " ++ f.severity.style.paint color f.message ++ "\n" ++
    detail .dim ("Location: " ++ placeText f.file f.line) ++
    (if i.relativePath ≠ "" ∧ i.relativePath ≠ f.file then
      detail .dim ("Relative: " ++ placeText i.relativePath f.line) else "") ++
    (if f.suggestion ≠ "" then detail .hint ("💡 Suggestion: " ++ f.suggestion) else "") ++
    (if contextText f.context ≠ "" then
      detail .dim ("ℹ️  Context: " ++ contextText f.context) else "")

def kindLines (color : Bool) (kind : Kind) (issues : List Issue) : String :=
  styledLine color "" .count
    ("   📋 " ++ kind.code ++ " (" ++ Decimal.natText issues.length ++ " error(s)):") ++
    String.join (issues.map (issueLines color)) ++ "\n"

def ruler (c : Char) : String := String.ofList (List.replicate 50 c)

def outcomeLines (color : Bool) (o : Outcome) : String :=
  let label := "PHP " ++ o.php ++ ", WordPress " ++ o.wp
  if o.isClean then styledLine color "" .pass ("✅ " ++ label ++ ": pass")
  else
    styledLine color "" .warning ("   Errors found on " ++ label ++ ":") ++
      styledLine color "" .dim ("   " ++ ruler '-') ++
      String.join ((groupByKind o.issues.items).map fun (kind, issues) =>
      kindLines color kind issues)

def countLine (what : String) (n : Int) : String :=
  if 0 < n then "   " ++ what ++ ": " ++ Decimal.intText n ++ "\n" else ""

def hiddenLines (s : Summary) : String :=
  countLine "Suppressed findings" s.suppressed ++ countLine "Baselined findings" s.baselined

def filterText (r : Report) : String :=
  if r.isFatalOnly then
    "🔍 Filter: Showing fatal errors only (use --show-all-errors to see warnings)"
  else "🔍 Filter: Showing severity levels: " ++
    ", ".intercalate (r.severities.items.map (·.label))

def cleanLines (color : Bool) (r : Report) : String :=
  let text := if r.isFatalOnly then "No fatal errors detected" else "No errors detected"
  styledLine color "" .pass ("✅ Excellent! " ++ text ++ ".") ++
    "   Files scanned: " ++ Decimal.intText r.filesScanned ++ "\n" ++
    styledLine color "   PHP versions tested: " .count (", ".intercalate r.phpVersions.items) ++
    styledLine color "   WordPress versions tested: " .count
    (", ".intercalate r.wpVersions.items) ++
    hiddenLines r.summary

/-- The counts by severity; that of the lowest severity shows only if there are any. -/
def severityLines (color : Bool) (s : Summary) : String :=
  String.join ([Severity.error, .warning, .info].map fun severity =>
    let n := (Table.get? severity.label s.bySeverity).getD 0
    if 0 < n ∨ severity ≠ .info then
      "   " ++ severity.icon ++ " " ++ severity.label ++ ": " ++
        severity.style.paint color (Decimal.intText n) ++ "\n"
    else "")

def matrixLine (color : Bool) (o : Outcome) : String :=
  let status := if o.isClean then Style.pass.paint color "✅ Pass"
    else Style.fail.paint color ("❌ " ++ Decimal.natText o.issues.items.length ++ " error(s)")
  "   PHP " ++ o.php ++ " + WordPress " ++ o.wp ++ ": " ++ status ++ "\n"

def failureLines (color : Bool) (r : Report) : String :=
  let heading := styledLine color "" .heading
  let label := if r.isFatalOnly then "Fatal errors" else "Errors"
  styledLine color "" .fail
      ("❌ " ++ label ++ " detected: " ++ Decimal.intText r.summary.totalFindings ++ " total") ++
    "\n" ++
    heading "📈 Breakdown by severity:" ++ severityLines color r.summary ++ "\n" ++
    heading "📋 Breakdown by kind:" ++
    String.join ((kindsByCount r.summary.byKind).map fun (kind, n) =>
      "   • " ++ kind ++ ": " ++ Style.count.paint color (Decimal.intText n) ++ "\n") ++ "\n" ++
    heading "🔍 Version compatibility matrix:" ++
    String.join (r.outcomes.items.map (matrixLine color)) ++ hiddenLines r.summary ++ "\n" ++
    heading "💡 Recommendations:" ++
    "   1. Fix all " ++ Style.fail.paint color "error-level" ++
      " issues before deploying to production\n" ++
    "   2. Address " ++ Style.warning.paint color "warning-level" ++
      " issues to ensure future compatibility\n" ++
    "   3. Test your fixes by running the tool again\n" ++
    "   4. Consider running the scan in CI for continuous compatibility checking\n"

def prettyWarnings (color : Bool) (r : Report) : String :=
  if r.warnings.isEmpty then ""
  else "\n" ++ styledLine color "" .heading "Warnings:" ++
    String.join (r.warnings.map fun w => "   - " ++ w ++ "\n")

def prettyText (color : Bool) (r : Report) : String :=
  styledLine color "" .title "WordPress plugin fatal error scan" ++
    styledLine color "" .dim ("Plugin: " ++ r.pluginRoot) ++
    (if r.ecosystems.items.isEmpty then ""
      else styledLine color "" .dim ("Ecosystems: " ++ ", ".intercalate r.ecosystems.items)) ++
    "\n" ++
    String.join (r.outcomes.items.map (outcomeLines color)) ++ "\n" ++
    styledLine color "" .heading "📊 SUMMARY" ++ styledLine color "" .dim (ruler '=') ++ "\n" ++
    styledLine color "" .hint r.filterText ++ "\n" ++
    (if r.summary.totalFindings = 0 then r.cleanLines color else r.failureLines color) ++
    r.prettyWarnings color

end Report

end PluginAudit
