import PluginAudit.Settings
import PluginAudit.Settings.Field

/-!
Settings and layers as JSON documents. An empty list of settings is null there; in a layer only a
list that is not set is null.
-/

namespace PluginAudit.Settings

def listJson (items : List String) : Json := if items.isEmpty then .null else .strs items

def toJson (s : Settings) : Json :=
  .obj
    [("PHPVersions", listJson s.phpVersions), ("WPVersions", listJson s.wpVersions),
     ("Severities", listJson (s.severities.map (·.label))), ("ReportingMode", .str s.mode.word),
     ("ExclusionConfig", .str s.exclusionConfig), ("ForceEcosystems", listJson s.forceEcosystems),
     ("DisableEcosystemDetection", .bool s.disableDetection),
     ("IgnoreDependencyErrors", .bool s.ignoreDependencies), ("Include", listJson s.includes),
     ("Exclude", listJson s.excludes), ("Detectors", listJson s.detectors),
    ("Workers", .int s.workers),
     ("Lint", .obj [("Enabled", .bool s.lint.enabled), ("Binary", .str s.lint.binary),
       ("Timeout", .int s.lint.timeout), ("Rate", .double s.lint.rate)]),
     ("ProbeRuntime", .bool s.probeRuntime), ("MaxEcosystemScanFiles", .int s.maxEcosystemFiles),
     ("Suppress", listJson s.suppress),
     ("Cache", .obj [("Enabled", .bool s.cache.enabled), ("Path", .str s.cache.path)])]

namespace Layer

def toJson (l : Layer) : Json :=
  let texts := Json.orNull Json.strs
  .obj
    [("PHPVersions", texts l.phpVersions), ("WPVersions", texts l.wpVersions),
     ("Severities", texts (l.severities.map fun all => all.map (·.label))),
     ("ReportingMode", Json.orNull (.str ·.word) l.mode),
     ("ExclusionConfig", Json.orNull .str l.exclusionConfig),
     ("ForceEcosystems", texts l.forceEcosystems),
     ("DisableEcosystemDetection", Json.orNull .bool l.disableDetection),
     ("IgnoreDependencyErrors", Json.orNull .bool l.ignoreDependencies),
    ("Include", texts l.includes),
     ("Exclude", texts l.excludes), ("Detectors", texts l.detectors),
     ("Workers", Json.orNull .int l.workers), ("LintEnabled", Json.orNull .bool l.lintEnabled),
     ("LintBinary", Json.orNull .str l.lintBinary), ("LintTimeout", Json.orNull .int l.lintTimeout),
     ("LintRate", Json.orNull .double l.lintRate),
    ("ProbeRuntime", Json.orNull .bool l.probeRuntime),
     ("MaxEcosystemScanFiles", Json.orNull .int l.maxEcosystemFiles),
    ("Suppress", texts l.suppress),
     ("CacheEnabled", Json.orNull .bool l.cacheEnabled),
    ("CachePath", Json.orNull .str l.cachePath)]

def shape : Shape Layer where
  fields :=
    [("PHPVersions", .texts fun v l => { l with phpVersions := v }),
     ("WPVersions", .texts fun v l => { l with wpVersions := v }),
     ("Severities", .texts fun v l => { l with severities := v.map fun all => all.map (⟨·⟩) }),
     ("ReportingMode", .text fun v l => { l with mode := v.map (⟨·⟩) }),
     ("ExclusionConfig", .text fun v l => { l with exclusionConfig := v }),
     ("ForceEcosystems", .texts fun v l => { l with forceEcosystems := v }),
     ("DisableEcosystemDetection", .flag fun v l => { l with disableDetection := v }),
     ("IgnoreDependencyErrors", .flag fun v l => { l with ignoreDependencies := v }),
     ("Include", .texts fun v l => { l with includes := v }),
     ("Exclude", .texts fun v l => { l with excludes := v }),
     ("Detectors", .texts fun v l => { l with detectors := v }),
     ("Workers", .whole fun v l => { l with workers := v }),
     ("LintEnabled", .flag fun v l => { l with lintEnabled := v }),
     ("LintBinary", .text fun v l => { l with lintBinary := v }),
     ("LintTimeout", .whole fun v l => { l with lintTimeout := v }),
     ("LintRate", .real fun v l => { l with lintRate := v }),
     ("ProbeRuntime", .flag fun v l => { l with probeRuntime := v }),
     ("MaxEcosystemScanFiles", .whole fun v l => { l with maxEcosystemFiles := v }),
     ("Suppress", .texts fun v l => { l with suppress := v }),
     ("CacheEnabled", .flag fun v l => { l with cacheEnabled := v }),
     ("CachePath", .text fun v l => { l with cachePath := v })]
  sections := []

end Layer

end PluginAudit.Settings
