import PluginAudit.CommandLine.Parse
import PluginAudit.Report.Baseline
import PluginAudit.Revision
import PluginAudit.Scan
import PluginAudit.Settings.Load

/-!
Doing what a command line asks for: the text that is written, the error if there is one, and the
state of files and counters afterwards.
-/

namespace PluginAudit.CommandLine

open Scan (Means World)

inductive Failure where
  | target (cause : Target.Error)
  | document (cause : Settings.LoadError)
  | settings (cause : Settings.Error)
  | scan (cause : Scan.Error)
  | baseline (cause : Baseline.LoadError)
  | noKey
  | save (cause : Baseline.SaveError)
  | metrics
  | watcher (cause : Selection.Error)
  | exclusions
  | findings

def Failure.message : Failure → String
  | .target cause => cause.message
  | .document cause => cause.message
  | .settings cause => cause.message
  | .scan cause => cause.message
  | .baseline cause => cause.message
  | .noKey => "--save-baseline requires --baseline-key outside a git checkout"
  | .save cause => cause.message
  | .metrics => "write metrics file"
  | .watcher cause => "start watcher: " ++ cause.message
  | .exclusions => "write exclusion config"
  | .findings => "fatal errors detected in at least one PHP/WordPress combination"

structure Result where
  text : String := ""
  failure : Option Failure := none
  /-- The program ended before it had a text. -/
  crashed : Bool := false

def Result.ofExcept : Except Failure String → Result
  | .ok text => { text }
  | .error failure => { failure := some failure }

/-! ### Settings -/

structure Resolved where
  target : Target
  settings : Settings
  config : String

/-- The settings of a request: those of the command line over those of the plugin's document. -/
def resolve (m : Means) (tree : Node) (r : Request) : Except Failure Resolved := do
  let target ← (Target.ofPath tree m.here r.path).mapError .target
  let loaded ← (Settings.load tree m.here target.root r.config).mapError .document
  r.scan.settings.validate.mapError .settings
  let settings := (r.scan.settings.over loaded.layer).applyTo {}
  settings.validate.mapError .settings
  return ⟨target, settings, loaded.path⟩

/-! ### Scans -/

def applyBaseline (m : Means) (w : World) (r : ScanRequest) (report : Report) :
    Except Failure (World × Report) := do
  if r.baseline = "" then return (w, report)
  let b ← (Baseline.load w.tree m.here r.baseline).mapError .baseline
  let metrics := w.metrics.addSuppressed Metrics.Reason.baseline.label (b.countIn report)
  return ({ w with metrics }, b.apply report)

/-- The key of a snapshot: the one that is given, or the commit that is checked out. -/
def snapshotKey (tree : Node) (root given : String) : Except Failure String :=
  if given ≠ "" then .ok given
  else match Revision.checkedOut? tree root with
    | some id => .ok ("commit:" ++ id)
    | none => .error .noKey

def saveBaseline (m : Means) (w : World) (r : ScanRequest) (report : Report) :
    World × Except Failure Report :=
  if r.saveBaseline = "" then (w, .ok report)
  else match snapshotKey w.tree report.pluginRoot r.baselineKey with
    | .error failure => (w, .error failure)
    | .ok key =>
      let (tree, saved) := Baseline.save w.tree m.here r.saveBaseline key report m.now
      ({ w with tree }, (saved.mapError .save).map fun path =>
        { report with warnings := report.warnings ++ ["saved baseline snapshot: " ++ path] })

def writeMetrics (m : Means) (w : World) (r : ScanRequest) : Except Failure World :=
  let path := Path.absolute m.here r.metricsFile
  if r.metricsFile = "" then .ok w
  else if !FileTree.isDir w.tree (Path.dir path) then .error .metrics
  else match FileTree.overwrite w.tree path (bytesOf w.metrics.text) with
    | .ok tree => .ok { w with tree }
    | .error _ => .error .metrics

/-- What follows a scan: the baseline, the snapshot and the counters. A step that fails leaves what
the steps before it did. -/
def afterScan (m : Means) (w : World) (r : ScanRequest) (report : Report) :
    World × Except Failure Report :=
  match applyBaseline m w r report with
  | .error failure => (w, .error failure)
  | .ok (w, report) => match saveBaseline m w r report with
    | (w, .error failure) => (w, .error failure)
    | (w, .ok report) => match writeMetrics m w r with
      | .error failure => (w, .error failure)
      | .ok w => (w, .ok report)

def shown (r : Request) (report : Report) : Result :=
  let text := report.write? Report.Sarif.room r.scan.color r.format
  { text := text.getD ""
    failure := if report.passed then none else some .findings
    crashed := text.isNone }

def scan (m : Means) (w : World) (r : Request) : World × Result :=
  match resolve m w.tree r with
  | .error failure => (w, { failure := some failure })
  | .ok resolved =>
    match Scan.run m w ⟨r.path, resolved.config, resolved.settings⟩ with
    | (w, .error cause) => (w, { failure := some (.scan cause) })
    | (w, .ok report) => match afterScan m w r.scan report with
      | (w, .error failure) => (w, { failure := some failure })
      | (w, .ok report) => (w, shown r report)

/-- The first scan of a plugin that is watched. What it fails with does not end the watch. -/
def watch (m : Means) (w : World) (r : Request) : World × Result :=
  let ready := do
    let resolved ← resolve m w.tree r
    let s := resolved.settings
    discard ((Selection.Filter.ofTexts m.glob? s.includes s.excludes).mapError Failure.watcher)
  match ready with
  | .error failure => (w, { failure := some failure })
  | .ok () =>
    let (w, result) := scan m w r
    (w, { text := result.text, crashed := result.crashed })

/-! ### Ecosystems -/

def evidenceJson (e : Ecosystem.Evidence) : Json :=
  .obj [("ecosystem", .str e.ecosystem), ("source", .str e.origin.word), ("detail", .str e.detail)]

def ecosystemsJson (root : String) (found : Ecosystem.Result) (forced : Tags) : Json :=
  .obj ([("pluginRoot", .str root), ("ecosystems", .strs found.ecosystems)] ++
    memberUnless forced.isEmpty "forced" (.strs forced) ++
    [("evidence", .arr (found.evidence.map evidenceJson))])

def columnsText (rows : List (List String)) : String :=
  String.ofList (Text.alignColumns (Report.rowsText rows).toList)

def ecosystemsText (root : String) (found : List Ecosystem.Evidence) (forced : Tags) : String :=
  "Plugin: " ++ root ++ "\n" ++
    (if found.isEmpty then "No ecosystems detected.\n"
      else columnsText (["ECOSYSTEM", "SOURCE", "EVIDENCE"] ::
        found.map fun e => [e.ecosystem, e.origin.word, e.detail])) ++
    (if forced.isEmpty then "" else "Forced: " ++ ", ".intercalate forced ++ "\n")

def ecosystems (m : Means) (tree : Node) (r : Request) : Except Failure String := do
  let resolved ← resolve m tree r
  if m.cancelled then throw (.scan (.cancelled .ecosystems))
  let root := resolved.target.root
  let found := Ecosystem.detect (Scan.ecosystemDetector resolved.settings) tree root
  let forced := Tags.ofNames resolved.settings.forceEcosystems
  return if r.format = .json then Report.documentText (ecosystemsJson root found forced)
    else ecosystemsText root found.evidence forced

/-! ### Rules for widgets -/

def widgetRules (m : Means) (tree : Node) (r : ExclusionRequest) : WidgetRules :=
  (if Text.isBlank r.config then .builtin
    else WidgetRules.load tree (Path.seenFrom m.here r.config) m.order).withMode r.mode

def exclusionStats (m : Means) (tree : Node) (r : Request) : String :=
  let rules := widgetRules m tree r.exclusions
  let s := rules.stats
  if r.format = .json then
    Report.documentText (.obj (("reporting_mode", .str rules.mode.word) :: s.members))
  else columnsText [["Reporting mode:", rules.mode.word],
    ["Ecosystems:", Decimal.natText s.ecosystems], ["Widgets:", Decimal.natText s.widgets],
    ["Excluded widgets:", Decimal.natText s.excluded],
    ["Temporary exclusions:", Decimal.natText s.temporary],
    ["Future-proof widgets:", Decimal.natText s.futureProof]]

def exclusionExport (m : Means) (w : World) (r : ExclusionRequest) : World × Result :=
  let text := (widgetRules m w.tree r).exported m.now
  if r.output = "" then (w, { text })
  else match FileTree.writeFile w.tree (Path.absolute m.here r.output) (bytesOf text) with
    | .ok tree => ({ w with tree }, { text := "wrote exclusion config to " ++ r.output })
    | .error _ => (w, { failure := some .exclusions })

/-! ### Everything -/

def versionText : String := "wpfatal dev"

def execute (m : Means) (w : World) (r : Request) : World × Result :=
  match r.task with
  | .scan => scan m w r
  | .watch => watch m w r
  | .ecosystems => (w, .ofExcept (ecosystems m w.tree r))
  | .exclusionStats => (w, { text := exclusionStats m w.tree r })
  | .exclusionExport => exclusionExport m w r.exclusions
  | .version => (w, { text := versionText })

structure Output where
  status : Nat := 0
  out : String := ""
  err : String := ""
deriving DecidableEq

def endLine (s : String) : String := if s = "" ∨ s.endsWith "\n" then s else s ++ "\n"

def Result.status (r : Result) : Nat :=
  match r.failure with
  | none => 0
  | some .findings => 3
  | some _ => 1

def Result.output (r : Result) : Output :=
  if r.crashed then { status := 2, err := "panic: runtime error: makeslice: cap out of range\n" }
  else
    { status := r.status
      out := endLine r.text
      err := (r.failure.map fun f => f.message ++ "\n").getD "" }

def Refusal.output (r : Refusal) : Output :=
  if r.cause = .help then { out := r.command.usage }
  else { status := 2, err := "error: " ++ r.cause.message ++ "\n\n" ++ r.command.usage }

def ColorChoice.resolve (c : ColorChoice) (terminal : Bool) : Bool :=
  match c with
  | .always => true
  | .never => false
  | .auto => terminal

def run (m : Means) (w : World) (terminal : Bool) (words : List String) : World × Output :=
  match parse words with
  | .error refusal => (w, refusal.output)
  | .ok i =>
    let request :=
      { i.request with scan := { i.request.scan with color := i.color.resolve terminal } }
    let (w, result) := execute m w request
    (w, result.output)

end PluginAudit.CommandLine
