import PluginAudit.Ecosystem.Tags
import PluginAudit.FileTree.Write
import PluginAudit.Report.Document
import PluginAudit.Settings.Document

/-!
Results of earlier scans. A result is found by the settings of the scan and counts as long as the
digest of all that the scan read is the same. Results are files named by their own digests; a
pointer leads from the settings to the result.
-/

namespace PluginAudit.Scan

/-- What identifies a scan: the digest of its settings, and that of what it reads. -/
structure CacheEntry where
  key : String
  input : String
deriving DecidableEq

/-- Where the result of a scan is, and for which input. -/
structure CachePointer where
  input : String := ""
  object : String := ""
deriving DecidableEq

inductive Invalidation where
  | pointerCorrupt
  | inputChanged
  | objectMissing
  | objectCorrupt
deriving DecidableEq

def Invalidation.word : Invalidation → String
  | .pointerCorrupt => "pointer-corrupt"
  | .inputChanged => "input-changed"
  | .objectMissing => "object-missing"
  | .objectCorrupt => "object-corrupt"

structure Cache where
  path : String
  enabled : Bool
  usable : Bool := false
  hit : Bool := false
  written : Bool := false
  invalidation : Option Invalidation := none
  warnings : List String := []
deriving DecidableEq

namespace Cache

/-! ### Digests -/

def digestText (s : String) : String := Digest.sha256Hex (bytesOf s)

/-- The document of what a scan is asked for. The settings of the cache itself do not count. -/
def keyJson (root : String) (file : Option String) (s : Settings) : Json :=
  .obj ([("schema", .str "v1"), ("root", .str (Path.clean root))] ++
    textMember "file" (file.getD "") ++
    [("values", Settings.toJson { s with cache := ⟨false, ""⟩ })])

def keyDigest (root : String) (file : Option String) (s : Settings) : String :=
  digestText (keyJson root file s).compact

def fileDigest (tree : Node) (here path : String) : Except ReadError String :=
  (FileTree.readBeside tree here path).map Digest.sha256Hex

def extraDigest (tree : Node) (here path : String) : Except ReadError String :=
  match fileDigest tree here path with
  | .error e => if e.isMissing then .ok "missing" else .error e
  | ok => ok

/-- Joins parts of a record, which cannot hold the character between them. -/
def record (parts : List String) : String := "\x00".intercalate parts

def fileRecord (tree : Node) (here root path : String) : Except ReadError String :=
  (fileDigest tree here path).map fun digest =>
    record [(Path.relative? root path).getD path, digest]

def extraRecord (tree : Node) (here label path : String) : Except ReadError (Option String) :=
  if Text.isBlank path then .ok none
  else
    let path := Text.trim path
    (extraDigest tree here path).map fun digest => some (record [label, Path.clean path, digest])

/-- The records of all that a scan reads: the source files, the document of its settings, the rules
for widgets, the manifest, and the ecosystems. -/
def inputRecords (tree : Node) (here root : String) (files : List String)
    (config exclusions : String)
    (ecosystems : Tags) : Except ReadError (List String) := do
  let sources ← files.mapM (fileRecord tree here root)
  let extras ← [("config", config), ("exclusions", exclusions),
    ("composer", Path.join [root, "composer.json"])].mapM fun (label, path) =>
      extraRecord tree here label path
  return sources ++ extras.filterMap id ++ [record ["ecosystems", ",".intercalate ecosystems]]

def recordText (records : List String) : String :=
  String.join ((records.mergeSort (· ≤ ·)).map (· ++ "\n"))

def inputDigest (tree : Node) (here root : String) (files : List String)
    (config exclusions : String)
    (ecosystems : Tags) : Except ReadError String :=
  (inputRecords tree here root files config exclusions ecosystems).map fun records =>
    digestText (recordText records)

/-! ### Files -/

def pointerPath (c : Cache) (key : String) : String := Path.join [c.path, "keys", key ++ ".json"]

def objectPath (c : Cache) (object : String) : String :=
  Path.join [c.path, "objects", object ++ ".json"]

def pointerJson (p : CachePointer) : Json :=
  .obj [("inputDigest", .str p.input), ("objectDigest", .str p.object)]

def pointer? (s : List Char) : Option CachePointer :=
  (Json.parse? s).bind fun j => Json.intoRecord false
    [("inputDigest", Json.through (·.input) (fun v p => { p with input := v }) Json.intoText),
     ("objectDigest", Json.through (·.object) (fun v p => { p with object := v }) Json.intoText)] j
    {}

def objectText (r : Report) : String := Json.compact (.obj [("report", r.toJson)])

def object? (s : List Char) : Option Report :=
  (Json.parse? s).bind fun j =>
    Json.intoRecord false [("report", Report.into)] j {}

def pathOf (s : CacheSettings) (root : String) : String :=
  let path := if Text.isBlank s.path then CacheSettings.path {} else Text.trim s.path
  if Path.isAbsolute path then path else Path.join [root, path]

/-- Makes the directories of results. One that cannot be made leaves the results unusable, with a
warning. -/
def prepare (tree : Node) (s : CacheSettings) (root : String) : Node × Cache :=
  let path := pathOf s root
  let closed : Cache := { path, enabled := s.enabled }
  if !s.enabled then (tree, closed)
  else
    let make (name : String) (tree : Node) := FileTree.makeDirs tree (Path.join [path, name])
    let failed (e : FsError) : Cache :=
      { closed with warnings := ["result cache unavailable: " ++ e.message] }
    match make "keys" tree with
    | .error e => (e.tree, failed e.cause)
    | .ok tree => match make "objects" tree with
      | .error e => (e.tree, failed e.cause)
      | .ok tree => (tree, { closed with usable := true })

def disable (c : Cache) (cause : String) : Cache :=
  { c with usable := false, warnings := c.warnings ++ ["result cache disabled: " ++ cause] }

/-! ### Looking up and storing -/

def follow (c : Cache) (tree : Node) (here : String) (p : CachePointer) (input : String) :
    Except Invalidation Report :=
  if p.input ≠ input then .error .inputChanged
  else match FileTree.readUnder tree here c.path (c.objectPath p.object) with
    | .error _ => .error .objectMissing
    | .ok content => match object? (Text.decodeBytes content) with
      | some r => .ok r
      | none => .error .objectCorrupt

/-- The result of an earlier scan, or the reason why a known one does not count; nothing if none is
known. -/
def lookup? (c : Cache) (tree : Node) (here : String) (e : CacheEntry) :
    Option (Except Invalidation Report) :=
  if !c.usable then none
  else match FileTree.readUnder tree here c.path (c.pointerPath e.key) with
    | .error _ => none
    | .ok content => some (match pointer? (Text.decodeBytes content) with
      | none => .error .pointerCorrupt
      | some p => c.follow tree here p e.input)

/-- Keeps a result, unless it is kept already, and points to it. -/
def write (c : Cache) (tree : Node) (e : CacheEntry) (r : Report) :
    Except FileTree.Failed Node := do
  let text := objectText { r with cache := none }
  let object := digestText text
  let tree ← match FileTree.stat tree (c.objectPath object) with
    | .ok _ => .ok tree
    | .error .notFound => FileTree.overwrite tree (c.objectPath object) (bytesOf text)
    | .error cause => .error ⟨⟨"stat", c.objectPath object, cause⟩, tree⟩
  FileTree.overwrite tree (c.pointerPath e.key)
    (bytesOf (Json.compact (pointerJson ⟨e.input, object⟩)))

/-- Keeps a result if results are kept. One that cannot be kept gives a warning. -/
def store (c : Cache) (tree : Node) (e : CacheEntry) (r : Report) : Node × Cache :=
  if !c.usable then (tree, c)
  else match c.write tree e r with
    | .ok tree => (tree, { c with written := true })
    | .error failed =>
      (failed.tree,
        { c with warnings := c.warnings ++
        ["result cache write failed: " ++ failed.cause.message] })

def note? (c : Cache) : Option CacheNote :=
  if c.enabled then
    some ⟨true, c.path, c.hit, c.written, (c.invalidation.map Invalidation.word).getD ""⟩
  else none

end Cache

end PluginAudit.Scan
