import PluginAudit.FileTree.Write
import PluginAudit.Report.Format
import PluginAudit.Version

/-!
Baselines: findings that are accepted for a combination of versions, and the snapshots of reports
they come from. A snapshot is written once and never replaced.
-/

namespace PluginAudit

def Baseline.currentSchema : String := "1.0.0"

/-- Accepted findings, each as one text with its versions and its fingerprint. -/
structure Baseline where
  path : String := ""
  key : String := ""
  entries : List String := []
deriving DecidableEq

structure Snapshot where
  schema : String := ""
  key : String := ""
  savedAt : Moment := ⟨-62135596800, 0, 0⟩
  report : Report := {}

/-! ### Documents -/

def Snapshot.toJson (s : Snapshot) : Json :=
  .obj [("baselineSchemaVersion", .str s.schema), ("key", .str s.key),
    ("savedAt", .str s.savedAt.fullText), ("report", s.report.toJson)]

def Snapshot.obstacle? (s : Snapshot) : Option String := s.savedAt.obstacle?.or s.report.obstacle?

def Snapshot.parts : Json.Parts Snapshot :=
  [("baselineSchemaVersion", Json.through (·.schema) (fun v s => { s with schema := v })
     Json.intoText),
   ("key", Json.through (·.key) (fun v s => { s with key := v }) Json.intoText),
   ("savedAt", Json.through (·.savedAt) (fun v s => { s with savedAt := v }) intoMoment),
   ("report", Json.through (·.report) (fun v s => { s with report := v }) Report.into)]

def Snapshot.ofJson? (j : Json) : Option Snapshot :=
  (Json.intoRecord false Snapshot.parts j {}).filter fun s => !Text.isBlank s.schema

namespace Baseline

/-! ### Entries -/

/-- A version in its normal form; what is no version is only trimmed. -/
def normalVersion (value : String) : String :=
  match Version.normalize value with
  | .ok v => v
  | .error _ => Text.trim value

/-- The entry of a fingerprint: its versions and itself, with a null character between them. -/
def entryOf (php wp fingerprint : String) : String :=
  normalVersion php ++ "\x00" ++ normalVersion wp ++ "\x00" ++ fingerprint

def fingerprintOf (root : String) (i : Issue) : String :=
  if i.fingerprint = "" then i.finding.fingerprint root else i.fingerprint

def ofReport (path key : String) (r : Report) : Baseline :=
  { path, key
    entries := (r.outcomes.items.flatMap fun o =>
      o.issues.items.map fun i => entryOf o.php o.wp (fingerprintOf r.pluginRoot i)).eraseDups }

def accepts (b : Baseline) (php wp fingerprint : String) : Bool :=
  b.entries.contains (entryOf php wp fingerprint)

/-- The outcome without the issues that are accepted, which it counts. -/
def applyTo (b : Baseline) (o : Outcome) : Outcome :=
  let isAccepted (i : Issue) : Bool := b.accepts o.php o.wp i.fingerprint
  { o with
    issues := some (o.issues.items.filter (!isAccepted ·))
    baselined := Decimal.wrapInt (o.baselined + o.issues.items.countP isAccepted) }

def countIn (b : Baseline) (r : Report) : Nat :=
  r.outcomes.items.foldr
    (fun o n => (o.issues.items.countP fun i => b.accepts o.php o.wp i.fingerprint) + n) 0

/-- Takes the accepted issues out of a report, and says so in it. -/
def apply (b : Baseline) (r : Report) : Report :=
  Report.finalize { r with
    outcomes := r.outcomes.map fun all => all.map b.applyTo
    baseline := some ⟨b.path, b.key, b.countIn r⟩ }

/-! ### Reading -/

inductive LoadError where
  | unreadable (path : String) (cause : ReadError)
  | unsupported (schema : String)
  | malformed (path : String)

/-- What the reader of JSON has to say about a malformed document is left out. -/
def LoadError.message : LoadError → String
  | .unreadable path cause => "read baseline " ++ path ++ ": " ++ cause.message
  | .unsupported schema => "unsupported baseline schema version: " ++ schema
  | .malformed path => "parse baseline " ++ path

/-- The baseline of a document: a snapshot, or a report by itself. -/
def ofText (path : String) (s : List Char) : Except LoadError Baseline :=
  match (Json.parse? s).bind Snapshot.ofJson? with
  | some snapshot =>
    if snapshot.schema = currentSchema then
      .ok (ofReport path (Text.trim snapshot.key) snapshot.report)
    else .error (.unsupported snapshot.schema)
  | none => match (Json.parse? s).bind Report.ofJson? with
    | some r => .ok (ofReport path "" r)
    | none => .error (.malformed path)

def load (tree : Node) (here path : String) : Except LoadError Baseline :=
  match FileTree.readBeside tree here path with
  | .error cause => .error (.unreadable path cause)
  | .ok bytes => ofText path (Text.decodeBytes bytes)

/-! ### Writing -/

def isNameChar (c : Char) : Bool := c.isAlphanum || c == '-' || c == '_' || c == '.'

def nameOfKey (key : String) : String :=
  let kept := key.toList.map fun c => if isNameChar c then c else '_'
  let name := Text.trimBy (fun c => c == '.' || c == '_' || c == '-') kept
  if name.isEmpty then "baseline" else String.ofList name

def fileOfKey (key : String) : String := nameOfKey (Text.trim key) ++ ".json"

/-- The file of the snapshot of a key in a directory, as it is named. -/
def snapshotPath (dir key : String) : String := Path.join [Text.trim dir, fileOfKey key]

def savedReport (r : Report) : Report :=
  Report.finalize { r with
    outcomes := some r.outcomes.items
    schemaVersion := if Text.isBlank r.schemaVersion then Report.currentSchema else
      r.schemaVersion }

def snapshotOf (key : String) (r : Report) (now : Moment) : Snapshot :=
  ⟨currentSchema, Text.trim key, { now with offset := 0 }, savedReport r⟩

inductive SaveError where
  | noDirectory
  | noKey
  | taken (key path : String)
  | files (cause : FsError)
  | unwritable (cause : String)

def SaveError.message : SaveError → String
  | .noDirectory => "baseline store directory is required"
  | .noKey => "baseline key is required"
  | .taken key path =>
    "baseline snapshot already exists: key " ++ Text.quote key ++ " (" ++ path ++ ")"
  | .files cause => cause.message
  | .unwritable cause => cause

/-- A failure as seen from the working directory if the directory was given so. -/
def shownFrom (here dir : String) (e : FsError) : FsError :=
  if Path.isAbsolute dir then e else { e with path := (Path.relative? here e.path).getD e.path }

/-- Saves a report under a key, and says where: where the directory leads to as it is written, under
a name from the clean path. The file stays empty if no document can hold the report. -/
def save (tree : Node) (here dir key : String) (r : Report) (now : Moment) :
    Node × Except SaveError String :=
  let store := Path.seenFrom here (Text.trim dir)
  let path := snapshotPath dir key
  let snapshot := snapshotOf key r now
  let content := if snapshot.obstacle?.isSome then "" else Report.documentText snapshot.toJson
  if Text.isBlank dir then (tree, .error .noDirectory)
  else if Text.isBlank key then (tree, .error .noKey)
  else match FileTree.makeDirs tree store with
    | .error failed =>
      (failed.tree, .error (.files (shownFrom here (Text.trim dir) failed.cause)))
    | .ok tree =>
      match FileTree.createFile tree (store ++ "/" ++ fileOfKey key) (bytesOf content) with
      | .error ⟨_, _, .alreadyExists⟩ => (tree, .error (.taken (Text.trim key) path))
      | .error cause => (tree, .error (.files cause))
      | .ok tree => (tree, match snapshot.obstacle? with
        | some cause => .error (.unwritable cause)
        | none => .ok path)

end Baseline

end PluginAudit
