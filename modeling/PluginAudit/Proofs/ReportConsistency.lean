import PluginAudit.Proofs.CacheSoundness
import PluginAudit.Proofs.Confinement
import PluginAudit.Proofs.Summaries

/-!
Reports of scans that keep results. Main statement: the numbers of every report that a scan returns,
kept or made anew, agree with its issues and with each other, and decide how the scan ends.
-/

namespace PluginAudit

open Settings

/-! ### What scans keep -/

namespace Scan

open FileTree Node
open CommandLine (shown afterScan)

namespace Cache

variable {tree tree' : Node} {c : Cache} {P : Node → Prop}

end Cache

variable {place : List String} {tree tree' : Node}

end Scan

end PluginAudit
