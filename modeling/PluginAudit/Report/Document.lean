import PluginAudit.Finding.Document
import PluginAudit.Report

/-!
Reports as JSON documents. Counts and texts that are zero or empty are left out where the report can
do without them.
-/

namespace PluginAudit

open Json
  (Decoder Parts intoBool intoInt intoList intoOption intoRecord intoTable intoText orNull through)

def memberUnless (absent : Bool) (name : String) (j : Json) : List (String × Json) :=
  if absent then [] else [(name, j)]

def countMember (name : String) (n : Int) : List (String × Json) :=
  memberUnless (n == 0) name (.int n)

def textMember (name s : String) : List (String × Json) := memberUnless (s == "") name (.str s)

def Table.countsJson (counts : Table Int) : Json :=
  .obj (counts.map fun (name, n) => (name, .int n))

def Issue.toJson (i : Issue) : Json :=
  .obj (i.finding.members ++
    [("relativePath", .str i.relativePath), ("fingerprint", .str i.fingerprint)])

def Outcome.toJson (o : Outcome) : Json :=
  .obj ([("php", .str o.php), ("wp", .str o.wp), ("passed", .bool o.passed),
    ("findings", orNull (fun issues => .arr (issues.map Issue.toJson)) o.issues)] ++
    countMember "suppressed" o.suppressed ++ countMember "baselined" o.baselined)

def Summary.toJson (s : Summary) : Json :=
  .obj ([("combinations", .int s.combinations), ("passedCombinations", .int s.passedCombinations),
    ("failedCombinations", .int s.failedCombinations), ("totalFindings", .int s.totalFindings)] ++
    memberUnless s.bySeverity.isEmpty "bySeverity" (Table.countsJson s.bySeverity) ++
    memberUnless s.byKind.isEmpty "byKind" (Table.countsJson s.byKind) ++
    countMember "suppressed" s.suppressed ++ countMember "baselined" s.baselined)

def CacheNote.toJson (c : CacheNote) : Json :=
  .obj ([("enabled", .bool c.enabled)] ++ textMember "path" c.path ++ [("hit", .bool c.hit)] ++
    memberUnless (!c.written) "written" (.bool c.written) ++
    textMember "invalidation" c.invalidation)

def BaselineNote.toJson (b : BaselineNote) : Json :=
  .obj (textMember "path" b.path ++ textMember "key" b.key ++ [("baselined", .int b.baselined)])

def Report.outcomesJson (r : Report) : Json :=
  orNull (fun all => .arr (all.map Outcome.toJson)) r.outcomes

def Report.toJson (r : Report) : Json :=
  .obj ([("schemaVersion", .str r.schemaVersion), ("runId", .str r.runId),
    ("generatedAt", .str r.generatedAt.fullText), ("pluginRoot", .str r.pluginRoot),
    ("phpVersions", orNull .strs r.phpVersions), ("wpVersions", orNull .strs r.wpVersions),
    ("severities", orNull (fun all => .strs (all.map (·.label))) r.severities)] ++
    textMember "reportingMode" r.reportingMode ++
    [("ecosystems", orNull .strs r.ecosystems), ("filesScanned", .int r.filesScanned),
     ("combinations", r.outcomesJson), ("summary", r.summary.toJson)] ++
    (r.cache.map fun c => ("cache", c.toJson)).toList ++
    (r.baseline.map fun b => ("baseline", b.toJson)).toList ++
    memberUnless r.warnings.isEmpty "warnings" (.strs r.warnings))

/-- Why no document can hold a report, if none can: the first moment or number that stands in the
way. -/
def Report.obstacle? (r : Report) : Option String :=
  let numbers := r.outcomes.items.flatMap fun o =>
    o.issues.items.flatMap fun i => Value.numbersOf i.finding.context
  r.generatedAt.obstacle?.or ((numbers.find? (!·.isFinite)).map Json.unwritable)

/-! ### Reading -/

def intoMoment : Decoder Moment
  | .null, old => some old
  | .str s, _ => Moment.parse? s.toList
  | _, _ => none

def Issue.parts : Parts Issue :=
  Finding.parts.map (fun (name, into) =>
    (name, through (·.finding) (fun v i => { i with finding := v }) into)) ++
  [("relativePath", through (·.relativePath) (fun v i => { i with relativePath := v })
     intoText),
   ("fingerprint", through (·.fingerprint) (fun v i => { i with fingerprint := v })
     intoText)]

def Outcome.parts : Parts Outcome :=
  [("php", through (·.php) (fun v o => { o with php := v }) intoText),
   ("wp", through (·.wp) (fun v o => { o with wp := v }) intoText),
   ("passed", through (·.passed) (fun v o => { o with passed := v }) intoBool),
   ("findings", through (·.issues) (fun v o => { o with issues := v })
     (intoList ⟨.blank, "", ""⟩ (intoRecord false Issue.parts))),
   ("suppressed", through (·.suppressed) (fun v o => { o with suppressed := v }) intoInt),
   ("baselined", through (·.baselined) (fun v o => { o with baselined := v }) intoInt)]

/-- Counts by name; null takes them away. -/
def intoCounts : Decoder (Table Int) :=
  fun j old => (intoTable 0 intoInt j (some old)).map (·.getD [])

def Summary.parts : Parts Summary :=
  [("combinations", through (·.combinations) (fun v s => { s with combinations := v })
     intoInt),
   ("passedCombinations", through (·.passedCombinations)
     (fun v s => { s with passedCombinations := v }) intoInt),
   ("failedCombinations", through (·.failedCombinations)
     (fun v s => { s with failedCombinations := v }) intoInt),
   ("totalFindings", through (·.totalFindings) (fun v s => { s with totalFindings := v })
     intoInt),
   ("bySeverity", through (·.bySeverity) (fun v s => { s with bySeverity := v }) intoCounts),
   ("byKind", through (·.byKind) (fun v s => { s with byKind := v }) intoCounts),
   ("suppressed", through (·.suppressed) (fun v s => { s with suppressed := v }) intoInt),
   ("baselined", through (·.baselined) (fun v s => { s with baselined := v }) intoInt)]

def CacheNote.parts : Parts CacheNote :=
  [("enabled", through (·.enabled) (fun v c => { c with enabled := v }) intoBool),
   ("path", through (·.path) (fun v c => { c with path := v }) intoText),
   ("hit", through (·.hit) (fun v c => { c with hit := v }) intoBool),
   ("written", through (·.written) (fun v c => { c with written := v }) intoBool),
   ("invalidation", through (·.invalidation) (fun v c => { c with invalidation := v })
     intoText)]

def BaselineNote.parts : Parts BaselineNote :=
  [("path", through (·.path) (fun v b => { b with path := v }) intoText),
   ("key", through (·.key) (fun v b => { b with key := v }) intoText),
   ("baselined", through (·.baselined) (fun v b => { b with baselined := v }) intoInt)]

def intoTexts : Decoder (Listing String) := intoList "" intoText

def Report.parts : Parts Report :=
  [("schemaVersion", through (·.schemaVersion) (fun v r => { r with schemaVersion := v })
     intoText),
   ("runId", through (·.runId) (fun v r => { r with runId := v }) intoText),
   ("generatedAt", through (·.generatedAt) (fun v r => { r with generatedAt := v }) intoMoment),
   ("pluginRoot", through (·.pluginRoot) (fun v r => { r with pluginRoot := v }) intoText),
   ("phpVersions", through (·.phpVersions) (fun v r => { r with phpVersions := v }) intoTexts),
   ("wpVersions", through (·.wpVersions) (fun v r => { r with wpVersions := v }) intoTexts),
   ("severities", through (fun r => r.severities.map fun all => all.map (·.label))
     (fun v r => { r with severities := v.map fun all => all.map (⟨·⟩) }) intoTexts),
   ("reportingMode", through (·.reportingMode) (fun v r => { r with reportingMode := v })
     intoText),
   ("ecosystems", through (·.ecosystems) (fun v r => { r with ecosystems := v }) intoTexts),
   ("filesScanned", through (·.filesScanned) (fun v r => { r with filesScanned := v })
     intoInt),
   ("combinations", through (·.outcomes) (fun v r => { r with outcomes := v })
     (intoList {} (intoRecord false Outcome.parts))),
   ("summary", through (·.summary) (fun v r => { r with summary := v })
     (intoRecord false Summary.parts)),
   ("cache", through (·.cache) (fun v r => { r with cache := v })
     (intoOption {} (intoRecord false CacheNote.parts))),
   ("baseline", through (·.baseline) (fun v r => { r with baseline := v })
     (intoOption {} (intoRecord false BaselineNote.parts))),
   ("warnings", through (fun r => some r.warnings) (fun v r => { r with warnings := v.getD [] })
     intoTexts)]

def Report.into : Decoder Report := intoRecord false Report.parts

def Report.ofJson? (j : Json) : Option Report := Report.into j {}

end PluginAudit
