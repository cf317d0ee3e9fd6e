import PluginAudit.Ecosystem
import PluginAudit.Metrics
import PluginAudit.Scan.Cache
import PluginAudit.Scan.Toolchain
import PluginAudit.Suppression
import PluginAudit.Target
import PluginAudit.Widget.Overlay

/-!
Scans: every detector judges every source file of a plugin for every combination of versions. What
is found passes three filters, for findings about dependencies, for rules, and for severities, and
the rest is reported.
-/

namespace PluginAudit.Scan

structure Request where
  path : String
  /-- The document that the settings come from, if there is one. -/
  config : String := ""
  settings : Settings

structure Means where
  here : String
  now : Moment
  runId : String
  cancelled : Bool := false
  /-- A check of files in place of the runtime's. -/
  linter : Option Detector.Syntax.Linter := none
  /-- How globs are read, and what they cover. -/
  glob? : String → Option Glob := Glob.parse?
  /-- Where a program that is named without a directory is found. -/
  search : String → Option String := fun _ => none
  order : WidgetRules.Order := .byName

structure World where
  tree : Node
  metrics : Metrics := {}

inductive Stage where
  | walk
  | ecosystems
  | symbols
deriving DecidableEq

def Stage.text : Stage → String
  | .walk => "walk plugin"
  | .ecosystems => "detect ecosystems"
  | .symbols => "index plugin symbols"

inductive Error where
  | settings (cause : Settings.Error)
  | target (cause : Target.Error)
  | filter (cause : Selection.Error)
  | files (cause : FsError)
  | rule (cause : Suppression.Error)
  | detector (cause : Detector.Error)
  | cancelled (stage : Stage)

def Error.message : Error → String
  | .settings cause => cause.message
  | .target cause => cause.message
  | .filter cause => Stage.walk.text ++ ": " ++ cause.message
  | .files cause => Stage.walk.text ++ ": " ++ cause.message
  | .rule cause => cause.message
  | .detector cause => cause.message
  | .cancelled stage => stage.text ++ ": " ++ Lint.cancelledText

/-! ### What is scanned -/

def sourcesOf (m : Means) (tree : Node) (t : Target) (s : Settings) : Except Error (List String) :=
  match t.file with
  | some file => .ok [file]
  | none => do
    let filter ← (Selection.Filter.ofTexts m.glob? s.includes s.excludes).mapError .filter
    if m.cancelled then throw (.cancelled .walk)
    (Selection.sources tree t.root filter).mapError .files

def ecosystemDetector (s : Settings) : Ecosystem.Detector :=
  Ecosystem.Detector.withMaxFiles {} s.maxEcosystemFiles

/-- The ecosystems of a plugin: those that are found and those that are forced. -/
def ecosystemsOf (m : Means) (tree : Node) (root : String) (s : Settings) : Except Error Tags :=
  let forced := Tags.ofNames s.forceEcosystems
  if s.disableDetection then .ok (Tags.union [] forced)
  else if m.cancelled then .error (.cancelled .ecosystems)
  else .ok ((Ecosystem.detect (ecosystemDetector s) tree root).ecosystems.union forced)

/-! ### Plans -/

/-- All that a scan needs once its files are known. -/
structure Plan where
  root : String
  paths : List String
  files : List Source.File
  ecosystems : Tags
  rules : List Suppression.Rule
  widgets : WidgetRules
  toolchain : Toolchain
  detectors : List Detector

/-- The rules for widgets that settings ask for. A mode that is set goes before that of the
rules. -/
def widgetsOf (m : Means) (tree : Node) (s : Settings) : WidgetRules :=
  let rules := if Text.isBlank s.exclusionConfig then .builtin
    else WidgetRules.load tree (Path.seenFrom m.here s.exclusionConfig) m.order
  if s.mode ≠ .fatalOnly ∨ s.exclusionConfig = "" then rules.withMode s.mode else rules

def toolchainOf (m : Means) (tree : Node) (s : Settings) : Toolchain :=
  match m.linter with
  | some linter => { linter := some linter }
  | none => .ofSettings tree m.here m.search s m.cancelled

def planOf (m : Means) (tree : Node) (root : String) (paths : List String) (ecosystems : Tags)
    (s : Settings) : Except Error Plan := do
  let rules ← (Suppression.compile s.suppress).mapError .rule
  let widgets := widgetsOf m tree s
  let toolchain := toolchainOf m tree s
  if m.cancelled && !paths.isEmpty then throw (.cancelled .symbols)
  let files := paths.filterMap fun path => Source.File.load? tree m.here root path
  let env : Surroundings :=
    { root, ecosystems, widgets
      symbols := SymbolIndex.addFiles {} files
      runtime := toolchain.inventory }
  let all := Detector.builtins env { linter := toolchain.linter, live := !m.cancelled }
  let detectors ← (Detector.Registry.select all s.detectors).mapError .detector
  return { root, paths, files, ecosystems, rules, widgets, toolchain, detectors }

/-! ### Judging -/

/-- The outcome of a combination, and how many findings each filter dropped. -/
structure Judgement where
  outcome : Outcome
  byDependency : Nat
  byRule : Nat
  bySeverity : Nat

def findingsFor (p : Plan) (target : Combination) : StateM Detector.Syntax.Memo (List Finding) := do
  let results ← Detector.judgeAll p.detectors [target] p.files
  return Finding.sort (results.flatMap (·.findings))

def judge (p : Plan) (s : Settings) (target : Combination) (found : List Finding) : Judgement :=
  let own := if s.ignoreDependencies then found.filter (!·.kind.isDependency) else found
  let kept := Suppression.kept p.rules p.root target.php target.wp own
  let visible := Finding.filterSeverities kept s.severities
  let byDependency := found.length - own.length
  let byRule := own.length - kept.length
  { byDependency, byRule, bySeverity := kept.length - visible.length
    outcome :=
      { php := target.php, wp := target.wp
        issues := some (visible.map (Issue.ofFinding p.root))
        suppressed := byDependency + byRule } }

/-- The combinations of versions, one version of the language after the other. -/
def combinations (s : Settings) : List Combination :=
  s.phpVersions.flatMap fun php => s.wpVersions.map fun wp => ⟨php, wp⟩

def judgements (p : Plan) (s : Settings) : List Judgement × Detector.Syntax.Memo :=
  ((combinations s).mapM fun target => do return judge p s target (← findingsFor p target)).run {}

/-! ### Counting -/

def countDropped (m : Metrics) (j : Judgement) : Metrics :=
  ((m.addSuppressed Metrics.Reason.dependency.label j.byDependency).addSuppressed
    Metrics.Reason.rule.label j.byRule).addSuppressed Metrics.Reason.severity.label j.bySeverity

def countOutcome (files : Int) (m : Metrics) (o : Outcome) : Metrics :=
  o.issues.items.foldl (fun m i => m.addFinding i.finding.kind.code i.finding.severity.label)
    (m.addFiles files)

def countReport (m : Metrics) (r : Report) : Metrics :=
  r.outcomes.items.foldl (countOutcome r.filesScanned) m

def countTimings (m : Metrics) (r : Report) : Metrics :=
  r.outcomes.items.foldl (fun m o => m.addTiming o.php o.wp 0) m

/-! ### Running -/

def reportOf (m : Means) (p : Plan) (s : Settings) (judged : List Judgement) : Report :=
  Report.finalize
    { schemaVersion := Report.currentSchema, runId := m.runId, generatedAt := m.now
      pluginRoot := p.root, phpVersions := some s.phpVersions, wpVersions := some s.wpVersions
      severities := some s.severities, reportingMode := p.widgets.mode.word
      ecosystems := some p.ecosystems, filesScanned := p.paths.length
      outcomes := some (judged.map (·.outcome)), warnings := p.toolchain.warnings }

/-- Judges all combinations of a plan, keeps the result and counts. -/
def execute (m : Means) (w : World) (c : Cache) (e : CacheEntry) (p : Plan) (s : Settings) :
    World × Report :=
  let (judged, memo) := judgements p s
  let r := reportOf m p s judged
  let (tree, c) := c.store w.tree e r
  let r := { r with warnings := r.warnings ++ c.warnings, cache := c.note? }
  let checked := (p.toolchain.outcomes w.tree (Table.names memo.known)).foldl
    (fun m outcome => m.addLint outcome.word) w.metrics
  let metrics := countTimings (countReport (judged.foldl countDropped checked) r) r
  (⟨tree, metrics⟩, r)

def reuse (m : Means) (c : Cache) (r : Report) : Report :=
  { r with runId := m.runId, generatedAt := m.now, cache := { c with hit := true }.note? }

/-- The entry of a scan, and the results with it given up if there is none. -/
def entryOf (m : Means) (tree : Node) (c : Cache) (q : Request) (t : Target) (paths : List String)
    (ecosystems : Tags) : Cache × CacheEntry :=
  if !c.usable then (c, ⟨"", ""⟩)
  else if !q.settings.lint.rate.isFinite then
    (c.disable (Json.unwritable q.settings.lint.rate), ⟨"", ""⟩)
  else match
      Cache.inputDigest tree m.here t.root paths q.config q.settings.exclusionConfig ecosystems with
    | .ok input => (c, ⟨Cache.keyDigest t.root t.file q.settings, input⟩)
    | .error e => (c.disable e.message, ⟨"", ""⟩)

def runOn (m : Means) (w : World) (q : Request) (t : Target) (paths : List String)
    (ecosystems : Tags) :
    World × Except Error Report :=
  let (tree, c) := Cache.prepare w.tree q.settings.cache t.root
  let w := { w with tree }
  let (c, e) := entryOf m tree c q t paths ecosystems
  match c.lookup? tree m.here e with
  | some (.ok r) =>
    let r := reuse m c r
    ({ w with metrics := countReport w.metrics r }, .ok r)
  | known =>
    let c := { c with invalidation := known.bind fun r => match r with
      | .error reason => some reason
      | .ok _ => none }
    match planOf m tree t.root paths ecosystems q.settings with
    | .error cause => (w, .error cause)
    | .ok p =>
      let (w, r) := execute m w c e p q.settings
      (w, .ok r)

/-- What is to be scanned for a request, and the ecosystems of the plugin. -/
def survey (m : Means) (tree : Node) (q : Request) :
    Except Error (Target × List String × Tags) := do
  q.settings.validate.mapError .settings
  let t ← (Target.ofPath tree m.here q.path).mapError .target
  let paths ← sourcesOf m tree t q.settings
  let ecosystems ← ecosystemsOf m tree t.root q.settings
  return (t, paths, ecosystems)

def run (m : Means) (w : World) (q : Request) : World × Except Error Report :=
  match survey m w.tree q with
  | .error cause => (w, .error cause)
  | .ok (t, paths, ecosystems) => runOn m w q t paths ecosystems

end PluginAudit.Scan
