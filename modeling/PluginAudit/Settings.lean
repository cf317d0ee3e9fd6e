import PluginAudit.Duration
import PluginAudit.Finding
import PluginAudit.Version
import PluginAudit.Widget.Rule

/-!
The settings of a scan, and layers that change some of them. A layer that sets a list to nothing
takes the list of the layer below away; where a layer lies on another, such a list counts as not
set.
-/

namespace PluginAudit

structure LintSettings where
  enabled : Bool := true
  binary : String := "php"
  /-- Nanoseconds. -/
  timeout : Int := 10000000000
  /-- Checks per second, unlimited if zero. -/
  rate : Double := ⟨0⟩
deriving DecidableEq

structure CacheSettings where
  enabled : Bool := false
  path : String := ".wpfatal-cache"
deriving DecidableEq

structure Settings where
  phpVersions : List String := ["7.4", "8.0", "8.1", "8.2", "8.3"]
  wpVersions : List String := ["6.3", "6.4", "6.5", "6.6"]
  severities : List Severity := [.error]
  mode : Mode := .fatalOnly
  exclusionConfig : String := ""
  forceEcosystems : List String := []
  disableDetection : Bool := false
  ignoreDependencies : Bool := false
  includes : List String := []
  excludes : List String := []
  detectors : List String := []
  workers : Int := 1
  lint : LintSettings := {}
  probeRuntime : Bool := false
  maxEcosystemFiles : Int := 50
  suppress : List String := []
  cache : CacheSettings := {}
deriving DecidableEq

namespace Settings

structure Layer where
  phpVersions : Option (List String) := none
  wpVersions : Option (List String) := none
  severities : Option (List Severity) := none
  mode : Option Mode := none
  exclusionConfig : Option String := none
  forceEcosystems : Option (List String) := none
  disableDetection : Option Bool := none
  ignoreDependencies : Option Bool := none
  includes : Option (List String) := none
  excludes : Option (List String) := none
  detectors : Option (List String) := none
  workers : Option Int := none
  lintEnabled : Option Bool := none
  lintBinary : Option String := none
  lintTimeout : Option Int := none
  lintRate : Option Double := none
  probeRuntime : Option Bool := none
  maxEcosystemFiles : Option Int := none
  suppress : Option (List String) := none
  cacheEnabled : Option Bool := none
  cachePath : Option String := none
deriving DecidableEq

/-! ### Layers -/

/-- A list of a higher layer over one of a lower layer. An empty one takes the lower one away and is
not set itself. -/
def overList (higher lower : Option (List α)) : Option (List α) :=
  match higher with
  | none => lower
  | some [] => none
  | some items => some items

def Layer.over (higher lower : Layer) : Layer where
  phpVersions := overList higher.phpVersions lower.phpVersions
  wpVersions := overList higher.wpVersions lower.wpVersions
  severities := overList higher.severities lower.severities
  mode := higher.mode.or lower.mode
  exclusionConfig := higher.exclusionConfig.or lower.exclusionConfig
  forceEcosystems := overList higher.forceEcosystems lower.forceEcosystems
  disableDetection := higher.disableDetection.or lower.disableDetection
  ignoreDependencies := higher.ignoreDependencies.or lower.ignoreDependencies
  includes := overList higher.includes lower.includes
  excludes := overList higher.excludes lower.excludes
  detectors := overList higher.detectors lower.detectors
  workers := higher.workers.or lower.workers
  lintEnabled := higher.lintEnabled.or lower.lintEnabled
  lintBinary := higher.lintBinary.or lower.lintBinary
  lintTimeout := higher.lintTimeout.or lower.lintTimeout
  lintRate := higher.lintRate.or lower.lintRate
  probeRuntime := higher.probeRuntime.or lower.probeRuntime
  maxEcosystemFiles := higher.maxEcosystemFiles.or lower.maxEcosystemFiles
  suppress := overList higher.suppress lower.suppress
  cacheEnabled := higher.cacheEnabled.or lower.cacheEnabled
  cachePath := higher.cachePath.or lower.cachePath

def Layer.applyTo (l : Layer) (base : Settings) : Settings where
  phpVersions := l.phpVersions.getD base.phpVersions
  wpVersions := l.wpVersions.getD base.wpVersions
  severities := l.severities.getD base.severities
  mode := l.mode.getD base.mode
  exclusionConfig := l.exclusionConfig.getD base.exclusionConfig
  forceEcosystems := l.forceEcosystems.getD base.forceEcosystems
  disableDetection := l.disableDetection.getD base.disableDetection
  ignoreDependencies := l.ignoreDependencies.getD base.ignoreDependencies
  includes := l.includes.getD base.includes
  excludes := l.excludes.getD base.excludes
  detectors := l.detectors.getD base.detectors
  workers := l.workers.getD base.workers
  lint :=
    { enabled := l.lintEnabled.getD base.lint.enabled
      binary := l.lintBinary.getD base.lint.binary
      timeout := l.lintTimeout.getD base.lint.timeout
      rate := l.lintRate.getD base.lint.rate }
  probeRuntime := l.probeRuntime.getD base.probeRuntime
  maxEcosystemFiles := l.maxEcosystemFiles.getD base.maxEcosystemFiles
  suppress := l.suppress.getD base.suppress
  cache :=
    { enabled := l.cacheEnabled.getD base.cache.enabled
      path := l.cachePath.getD base.cache.path }

/-! ### Validity -/

inductive Error where
  | version (name : String) (cause : Version.Error)
  | noVersion (name : String)
  | severity (cause : Severity.Error)
  | noSeverity
  | mode (cause : Mode.Error)
  | notPositive (name : String) (value : Int)
  | noBinary
  | timeout (cause : Duration.Error)
  | noTimeout (value : Int)
  | negativeRate (value : Double)
  | noCachePath
deriving DecidableEq

def Error.message (e : Error) : String :=
  "invalid config " ++ match e with
  | .version name cause => name ++ ": " ++ cause.message
  | .noVersion name => name ++ ": must not be empty"
  | .severity cause => "severities: " ++ cause.message
  | .noSeverity => "severities: must not be empty"
  | .mode cause => "reporting_mode: " ++ cause.message
  | .notPositive name value => name ++ ": " ++ Decimal.intText value ++ " (must be >= 1)"
  | .noBinary => "lint.binary: must not be empty"
  | .timeout cause => "lint.timeout: " ++ cause.message
  | .noTimeout value => "lint.timeout: " ++ Duration.text value ++ " (must be > 0)"
  | .negativeRate value =>
    "lint.rate: " ++ Decimal.write Decimal.plainStyle value ++ " (must be >= 0)"
  | .noCachePath => "cache.path: must not be empty"

def checkVersions (name : String) (values : List String) : Except Error Unit :=
  match Version.normalizeList values with
  | .error cause => .error (.version name cause)
  | .ok [] => .error (.noVersion name)
  | .ok _ => .ok ()

def checkPositive (name : String) (n : Int) : Except Error Unit :=
  if n < 1 then .error (.notPositive name n) else .ok ()

def checkMode (m : Mode) : Except Error Unit :=
  match Mode.parse m.word with
  | .error cause => .error (.mode cause)
  | .ok _ => .ok ()

def checkTimeout (n : Int) : Except Error Unit :=
  if n ≤ 0 then .error (.noTimeout n) else .ok ()

def checkRate (x : Double) : Except Error Unit :=
  if x.isBelowZero then .error (.negativeRate x) else .ok ()

def validate (s : Settings) : Except Error Unit := do
  checkVersions "php_versions" s.phpVersions
  checkVersions "wp_versions" s.wpVersions
  if s.severities.isEmpty then .error .noSeverity
  checkMode s.mode
  checkPositive "workers" s.workers
  checkPositive "max_ecosystem_scan_files" s.maxEcosystemFiles
  if s.lint.enabled && Text.isBlank s.lint.binary then .error .noBinary
  checkTimeout s.lint.timeout
  checkRate s.lint.rate
  if s.cache.enabled && Text.isBlank s.cache.path then .error .noCachePath

def checkIfSet (check : α → Except Error Unit) : Option α → Except Error Unit
  | some a => check a
  | none => .ok ()

def Layer.validate (l : Layer) : Except Error Unit := do
  checkIfSet (checkVersions "php_versions") l.phpVersions
  checkIfSet (checkVersions "wp_versions") l.wpVersions
  checkIfSet checkMode l.mode
  checkIfSet (checkPositive "workers") l.workers
  checkIfSet (checkPositive "max_ecosystem_scan_files") l.maxEcosystemFiles
  checkIfSet checkTimeout l.lintTimeout
  checkIfSet checkRate l.lintRate

end Settings

end PluginAudit
