import PluginAudit.Report
import PluginAudit.Text.Columns

/-!
Reports as a table: a line that sums up, then a line for each issue.
-/

namespace PluginAudit.Report

def countPart (n : Int) (what : String) : String :=
  if 0 < n then ", " ++ Decimal.intText n ++ " " ++ what else ""

def summaryLines (r : Report) : String :=
  let s := r.summary
  "Summary: " ++ Decimal.intText r.filesScanned ++ " files, " ++
    Decimal.intText s.passedCombinations ++
    "/" ++ Decimal.intText s.combinations ++ " combinations passed, " ++
    Decimal.intText s.totalFindings ++ " findings" ++ countPart s.suppressed "suppressed" ++
    countPart s.baselined "baselined" ++ "\n" ++
    (if r.ecosystems.items.isEmpty then ""
      else "Ecosystems: " ++ ", ".intercalate r.ecosystems.items ++ "\n") ++ "\n"

def warningLines (r : Report) : String :=
  if r.warnings.isEmpty then ""
  else "\nWarnings:\n" ++ String.join (r.warnings.map fun w => "- " ++ w ++ "\n")

def placeText (path : String) (line : Int) : String := path ++ ":" ++ Decimal.intText line

def issueRow (o : Outcome) (i : Issue) : List String :=
  [o.php, o.wp, i.finding.severity.label, i.finding.kind.code,
   placeText i.relativePath i.finding.line, i.finding.message]

def rowsText (rows : List (List String)) : String :=
  String.join (rows.map fun row => "\t".intercalate row ++ "\n")

def tableText (r : Report) : String :=
  if r.summary.totalFindings = 0 then
    r.summaryLines ++ "No findings to report.\n" ++ r.warningLines
  else
    let heads := ["PHP", "WP", "Severity", "Kind", "Location", "Message"]
    let rows := r.outcomes.items.flatMap fun o => o.issues.items.map (issueRow o)
    r.summaryLines ++ String.ofList (Text.alignColumns (rowsText (heads :: rows)).toList) ++
      r.warningLines

end PluginAudit.Report
