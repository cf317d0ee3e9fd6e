import PluginAudit.Finding
import PluginAudit.Moment

/-!
Reports: the issues of a plugin for each combination of versions, with a summary that counts them. A
list of a report may be missing, which is not the same as an empty one when the report is written.
-/

namespace PluginAudit

abbrev Listing (α : Type) := Option (List α)

def Listing.items (l : Listing α) : List α := l.getD []

/-- A finding as it is reported: with its place in the plugin and a fingerprint that does not depend
on its line. -/
structure Issue where
  finding : Finding
  relativePath : String := ""
  fingerprint : String := ""
deriving DecidableEq

def Issue.ofFinding (root : String) (f : Finding) : Issue :=
  ⟨f, f.relativePath root, f.fingerprint root⟩

structure Outcome where
  php : String := ""
  wp : String := ""
  passed : Bool := false
  issues : Listing Issue := none
  suppressed : Int := 0
  baselined : Int := 0
deriving DecidableEq

structure Summary where
  combinations : Int := 0
  passedCombinations : Int := 0
  failedCombinations : Int := 0
  totalFindings : Int := 0
  bySeverity : Table Int := []
  byKind : Table Int := []
  suppressed : Int := 0
  baselined : Int := 0
deriving DecidableEq

structure CacheNote where
  enabled : Bool := false
  path : String := ""
  hit : Bool := false
  written : Bool := false
  invalidation : String := ""
deriving DecidableEq

structure BaselineNote where
  path : String := ""
  key : String := ""
  baselined : Int := 0
deriving DecidableEq

structure Report where
  schemaVersion : String := ""
  runId : String := ""
  generatedAt : Moment := ⟨-62135596800, 0, 0⟩
  pluginRoot : String := ""
  phpVersions : Listing String := none
  wpVersions : Listing String := none
  severities : Listing Severity := none
  reportingMode : String := ""
  ecosystems : Listing String := none
  filesScanned : Int := 0
  outcomes : Listing Outcome := none
  summary : Summary := {}
  cache : Option CacheNote := none
  baseline : Option BaselineNote := none
  warnings : List String := []
deriving DecidableEq

namespace Report

def currentSchema : String := "1.0.0"

/-! ### Counting -/

def tally (counts : Table Int) (name : String) : Table Int :=
  Table.insert name ((Table.get? name counts).getD 0 + 1) counts

def tallyAll (names : List String) : Table Int := names.foldl tally []

def issuesOf (outcomes : List Outcome) : List Issue := outcomes.flatMap fun o => o.issues.items

def total (count : Outcome → Int) (outcomes : List Outcome) : Int :=
  outcomes.foldr (fun o n => count o + n) 0

end Report

def Outcome.isClean (o : Outcome) : Bool := o.issues.items.isEmpty

def Summary.ofOutcomes (outcomes : List Outcome) : Summary where
  combinations := outcomes.length
  passedCombinations := outcomes.countP (·.isClean)
  failedCombinations := outcomes.countP (!·.isClean)
  totalFindings := (Report.issuesOf outcomes).length
  bySeverity := Report.tallyAll ((Report.issuesOf outcomes).map (·.finding.severity.label))
  byKind := Report.tallyAll ((Report.issuesOf outcomes).map (·.finding.kind.code))
  suppressed := Report.total (·.suppressed) outcomes
  baselined := Report.total (·.baselined) outcomes

namespace Report

/-- Sets the flags of outcomes and the summary by the issues that are left. -/
def finalize (r : Report) : Report :=
  let outcomes :
    Listing Outcome := r.outcomes.map fun all => all.map fun o => { o with passed := o.isClean }
  { r with outcomes, summary := .ofOutcomes outcomes.items }

def passed (r : Report) : Bool := r.outcomes.items.all (·.isClean)

def refresh (r : Report) : Report :=
  { r with outcomes := r.outcomes.map fun all => all.map fun o =>
      { o with issues := o.issues.map fun found =>
          found.map fun i => Issue.ofFinding r.pluginRoot i.finding } }

/-- Kinds with their counts, the highest first, those with one count by name. -/
def kindsByCount (byKind : Table Int) : List (String × Int) :=
  byKind.mergeSort fun a b => a.2 > b.2 || (a.2 == b.2 && decide (a.1 ≤ b.1))

/-- Issues by kind, in the order in which kinds come first. -/
def groupByKind (issues : List Issue) : List (Kind × List Issue) :=
  (issues.map (·.finding.kind)).eraseDups.map fun kind =>
    (kind, issues.filter (·.finding.kind == kind))

def isFatalOnly (r : Report) : Bool := r.severities.items == [.error]

end Report

end PluginAudit
