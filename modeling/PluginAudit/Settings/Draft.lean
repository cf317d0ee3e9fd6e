import PluginAudit.Settings
import PluginAudit.Settings.Field

/-!
Settings as a document gives them, and the layer they make: lists without blank entries and
repetitions, names in lower case, and paths seen from the directory of the document.
-/

namespace PluginAudit.Settings

structure Draft where
  phpVersions : Option (List String) := none
  wpVersions : Option (List String) := none
  severities : Option (List String) := none
  mode : Option String := none
  exclusionConfig : Option String := none
  forceEcosystems : Option (List String) := none
  disableDetection : Option Bool := none
  ignoreDependencies : Option Bool := none
  includes : Option (List String) := none
  excludes : Option (List String) := none
  detectors : Option (List String) := none
  workers : Option Int := none
  lintEnabled : Option Bool := none
  lintBinary : Option String := none
  lintTimeout : Option String := none
  lintRate : Option Double := none
  probeRuntime : Option Bool := none
  maxEcosystemFiles : Option Int := none
  suppress : Option (List String) := none
  cacheEnabled : Option Bool := none
  cachePath : Option String := none
deriving DecidableEq

def Draft.shape : Shape Draft where
  fields :=
    [("php_versions", .texts fun v d => { d with phpVersions := v }),
     ("wp_versions", .texts fun v d => { d with wpVersions := v }),
     ("severities", .texts fun v d => { d with severities := v }),
     ("reporting_mode", .text fun v d => { d with mode := v }),
     ("exclusion_config", .text fun v d => { d with exclusionConfig := v }),
     ("force_ecosystems", .texts fun v d => { d with forceEcosystems := v }),
     ("disable_ecosystem_detection", .flag fun v d => { d with disableDetection := v }),
     ("ignore_dependency_errors", .flag fun v d => { d with ignoreDependencies := v }),
     ("include", .texts fun v d => { d with includes := v }),
     ("exclude", .texts fun v d => { d with excludes := v }),
     ("detectors", .texts fun v d => { d with detectors := v }),
     ("workers", .whole fun v d => { d with workers := v }),
     ("probe_runtime", .flag fun v d => { d with probeRuntime := v }),
     ("max_ecosystem_scan_files", .whole fun v d => { d with maxEcosystemFiles := v }),
     ("suppress", .texts fun v d => { d with suppress := v })]
  sections :=
    [("lint",
      [("enabled", .flag fun v d => { d with lintEnabled := v }),
       ("binary", .text fun v d => { d with lintBinary := v }),
       ("timeout", .text fun v d => { d with lintTimeout := v }),
       ("rate", .real fun v d => { d with lintRate := v })]),
     ("cache",
      [("enabled", .flag fun v d => { d with cacheEnabled := v }),
       ("path", .text fun v d => { d with cachePath := v })])]

/-- Texts without blanks around them, blank ones and repetitions left out. -/
def tidy (texts : List String) : List String := ((texts.map Text.trim).filter (· ≠ "")).eraseDups

def tidyLower (texts : List String) : List String := tidy ((tidy texts).map Text.lower)

def pathFrom (dir path : String) : String :=
  let trimmed := Text.trim path
  if trimmed = "" ∨ Path.isAbsolute trimmed then trimmed else Path.join [dir, trimmed]

def readIfSet (read : α → Except ε β) : Option α → Except ε (Option β)
  | none => .ok none
  | some a => (read a).map some

def Draft.toLayer (d : Draft) (dir : String) : Except Error Layer := do
  let severities ← readIfSet (fun texts =>
    (Severity.parseList (",".intercalate texts)).mapError .severity) d.severities
  let mode ← readIfSet (fun text => (Mode.parse text).mapError .mode) d.mode
  let timeout ← readIfSet
    (fun text => (Duration.parse (Text.trim text)).mapError .timeout) d.lintTimeout
  return {
    phpVersions := d.phpVersions.map tidy
    wpVersions := d.wpVersions.map tidy
    severities, mode
    exclusionConfig := d.exclusionConfig.map (pathFrom dir)
    forceEcosystems := d.forceEcosystems.map tidyLower
    disableDetection := d.disableDetection
    ignoreDependencies := d.ignoreDependencies
    includes := d.includes.map tidy
    excludes := d.excludes.map tidy
    detectors := d.detectors.map tidyLower
    workers := d.workers
    lintEnabled := d.lintEnabled
    lintBinary := d.lintBinary
    lintTimeout := timeout
    lintRate := d.lintRate
    probeRuntime := d.probeRuntime
    maxEcosystemFiles := d.maxEcosystemFiles
    suppress := d.suppress.map tidy
    cacheEnabled := d.cacheEnabled
    cachePath := d.cachePath.map (pathFrom dir) }

end PluginAudit.Settings
