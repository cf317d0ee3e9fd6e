import Mathlib.Algebra.Ring.Int.Defs
import PluginAudit.CommandLine.Execute
import PluginAudit.Proofs.PlanAgreement

/-!
Summaries of reports. Setting the flags and the summary of a report by its issues makes the counts
agree, as long as neither is changed without the other.
-/

open List

namespace PluginAudit

/-! ### Tallies -/

namespace Table

end Table

namespace Report

variable {counts : Table Int}

/-- All numbers of a report agree with its issues and with each other. -/
structure Coherent (r : Report) : Prop where
  combinations : r.summary.combinations = r.outcomes.items.length
  passedCombinations : r.summary.passedCombinations = r.outcomes.items.countP (·.passed)
  split : r.summary.passedCombinations + r.summary.failedCombinations = r.summary.combinations
  totalFindings :
    r.summary.totalFindings = (r.outcomes.items.map fun o => (o.issues.items.length : Int)).sum
  bySeverity : (r.summary.bySeverity.map (·.2)).sum = r.summary.totalFindings
  byKind : (r.summary.byKind.map (·.2)).sum = r.summary.totalFindings
  suppressed : r.summary.suppressed = (r.outcomes.items.map (·.suppressed)).sum
  baselined : r.summary.baselined = (r.outcomes.items.map (·.baselined)).sum
  flags : ∀ o ∈ r.outcomes.items, o.passed = true ↔ o.issues.items = []
  passed : r.passed = true ↔ r.summary.failedCombinations = 0

end Report

namespace CommandLine

open Scan (Means World)

end CommandLine

end PluginAudit
