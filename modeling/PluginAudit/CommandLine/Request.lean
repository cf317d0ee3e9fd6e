import PluginAudit.CommandLine.Command
import PluginAudit.Report.Format
import PluginAudit.Settings.Document

/-!
What a command line asks for: a task with its parts, how to log, and whether to use colors.
-/

namespace PluginAudit.CommandLine

inductive Task where
  | scan
  | watch
  | ecosystems
  | exclusionStats
  | exclusionExport
  | version
deriving DecidableEq

def Task.name : Task → String
  | .scan => "scan"
  | .watch => "watch"
  | .ecosystems => "ecosystems"
  | .exclusionStats => "exclusions-stats"
  | .exclusionExport => "exclusions-export"
  | .version => "version"

structure ScanRequest where
  settings : Settings.Layer := {}
  baseline : String := ""
  saveBaseline : String := ""
  baselineKey : String := ""
  metricsFile : String := ""
  color : Bool := false
  /-- How long nothing may change before the next scan, in nanoseconds. -/
  debounce : Int := 0
deriving DecidableEq

structure ExclusionRequest where
  config : String := ""
  mode : Mode := .fatalOnly
  output : String := ""
deriving DecidableEq

structure Request where
  task : Task := .scan
  path : String := "."
  format : Report.Format := .pretty
  config : String := ""
  scan : ScanRequest := {}
  exclusions : ExclusionRequest := {}
deriving DecidableEq

inductive LogFormat where
  | text
  | json
deriving DecidableEq

def LogFormat.name : LogFormat → String
  | .text => "text"
  | .json => "json"

inductive ColorChoice where
  | auto
  | always
  | never
deriving DecidableEq

def ColorChoice.name : ColorChoice → String
  | .auto => "auto"
  | .always => "always"
  | .never => "never"

structure Invocation where
  request : Request := {}
  logLevel : Int := 0
  logFormat : LogFormat := .text
  color : ColorChoice := .auto
deriving DecidableEq

/-! ### Levels of logs -/

def logLevels : List (String × Int) := [("ERROR", 8), ("WARN", 4), ("INFO", 0), ("DEBUG", -4)]

/-- The level that a text names: a name, and a distance from it. -/
def logLevel? (s : String) : Option Int := do
  let (name, distance) := s.toList.span fun c => c != '+' && c != '-'
  let offset ← if distance.isEmpty then some 0 else Decimal.readInt? distance
  let level ← logLevels.lookup (String.ofList (name.map Char.toUpper))
  return level + offset

/-- A level by the nearest name that is not above it; the lowest name also serves below it. -/
def logLevelText (level : Int) : String :=
  let (name, named) := (logLevels.find? fun (_, n) => n ≤ level).getD ("DEBUG", -4)
  let offset := level - named
  if offset = 0 then name
  else name ++ (if 0 < offset then "+" else "") ++ Decimal.intText offset

/-! ### Documents -/

def Request.toJson (r : Request) : Json :=
  .obj
    [("Mode", .str r.task.name), ("Path", .str r.path), ("Format", .str r.format.name),
     ("ConfigPath", .str r.config),
     ("Scan", .obj
       [("Overrides", r.scan.settings.toJson), ("BaselinePath", .str r.scan.baseline),
        ("SaveBaselineDir", .str r.scan.saveBaseline), ("BaselineKey", .str r.scan.baselineKey),
        ("MetricsFile", .str r.scan.metricsFile), ("Color", .bool r.scan.color),
        ("Debounce", .int r.scan.debounce)]),
     ("Exclusions", .obj
       [("ConfigPath", .str r.exclusions.config), ("ReportingMode", .str r.exclusions.mode.word),
        ("OutputPath", .str r.exclusions.output)])]

def Invocation.toJson (i : Invocation) : Json :=
  .obj [("request", i.request.toJson), ("log_level", .str (logLevelText i.logLevel)),
    ("log_format", .str i.logFormat.name), ("color", .str i.color.name)]

end PluginAudit.CommandLine
