import PluginAudit.Ecosystem.Signature
import PluginAudit.FileTree.Wildcard
import PluginAudit.Selection
import PluginAudit.Source.Header
import PluginAudit.Source.Manifest

/-!
Finding out to which ecosystems a plugin belongs, with the evidence: the header of its main file,
the paths and texts of its source files, and the packages that it asks for.
-/

namespace PluginAudit.Ecosystem

open Pattern

inductive Origin where
  | header
  | path
  | code
  | composer
deriving DecidableEq, Repr

def Origin.word : Origin → String
  | .header => "header"
  | .path => "path"
  | .code => "code"
  | .composer => "composer"

structure Evidence where
  ecosystem : String
  origin : Origin
  detail : String
deriving DecidableEq, Repr

/-- Adds a piece of evidence unless there is one for the same ecosystem from the same origin. -/
def addEvidence (found : List Evidence) (e : Evidence) : List Evidence :=
  if found.any fun old => old.ecosystem == e.ecosystem && old.origin == e.origin then found
  else found ++ [e]

/-- The ecosystems of a plugin, and the evidence for them. -/
structure Result where
  ecosystems : Tags := []
  evidence : List Evidence := []

def Result.add (r : Result) (e : Evidence) : Result :=
  ⟨r.ecosystems.add e.ecosystem, addEvidence r.evidence e⟩

def mentions (text needle : String) : Bool := Text.contains (Text.lower text) (Text.lower needle)

/-! ### Headers -/

def nameField : Pattern := .cat [literalAnyCase "Plugin Name", spaces, literal ":"]

/-- The contents to search for headers: that of the first main file, or all if there is none. -/
def mainContents (before : List (List Char)) : List (List Char) → List (List Char)
  | [] => before
  | content :: contents =>
    if nameField.test content then [content] else mainContents (before ++ [content]) contents

def rootContents (tree : Node) (root : String) : List (List Char) :=
  let paths := sortedNames (FileTree.Wildcard.expand tree (Path.join [root, "*.php"]))
  paths.filterMap fun path => (FileTree.readUnder tree root root path).toOption.map Text.decodeBytes

/-- A character that is trimmed from the lines of a header. -/
def isHeaderEdge (c : Char) : Bool :=
  c == ' ' || c == '\t' || c == '\r' || c == '\x00' || c == '\x0b' || c == '*'

def headerLines (content : List Char) : List String :=
  match Source.headerBlock? content with
  | none => []
  | some block =>
    ((Text.splitOnChar '\n' block).map (Text.trimBy isHeaderEdge)).filterMap fun line =>
      if line.isEmpty then none else some (String.ofList line)

/-- The first line that contains the first possible of some texts. -/
def firstMention? (lines needles : List String) : Option String :=
  needles.findSome? fun needle => lines.find? fun line => mentions line needle

def headerEvidence (signatures : Table Signature) (content : List Char) : List Evidence :=
  signatures.filterMap fun (tag, s) =>
    (firstMention? (headerLines content) s.headers).map fun line => ⟨tag, .header, line⟩

/-! ### Code -/

def firstIn? (text : String) (needles : List String) : Option String :=
  needles.find? fun needle => Text.contains text (Text.lower needle)

/-- The evidence of one ecosystem in a source file: its path counts first, then classes, then
functions. -/
def fileEvidence? (path : String) (content : List Char) (tag : String) (s : Signature) :
    Option Evidence :=
  let text := Text.lower (String.ofList content)
  match firstIn? ("/" ++ Text.lower path) s.paths with
  | some hit => some ⟨tag, .path, path ++ " matches " ++ hit⟩
  | none => match firstIn? text s.classes with
    | some hit => some ⟨tag, .code, path ++ " references " ++ hit⟩
    | none => (firstIn? text s.functions).map fun hit => ⟨tag, .code, path ++ " calls " ++ hit⟩

/-- The source files below a root that are searched, at most `limit`. A link in place of the root is
not followed. -/
def searchedFiles (tree : Node) (root : String) (limit : Nat) : List String :=
  match FileTree.resolveParent tree root with
  | .error _ => []
  | .ok place => match tree.find? place with
    | none => []
    | some top =>
      ((FileTree.leaves Selection.skipsDir top).map (·.1) |>.filter Selection.isSource).take limit

def codeEvidence (tree : Node) (root : String) (signatures : Table Signature) (path : String) :
    List Evidence :=
  match FileTree.readUnder tree root root (Path.join [root, path]) with
  | .error _ => []
  | .ok content =>
    signatures.filterMap fun (tag, s) => fileEvidence? path (Text.decodeBytes content) tag s

/-! ### Packages -/

def packageEvidence (tree : Node) (root : String) (signatures : Table Signature) : List Evidence :=
  match Source.Manifest.load tree root root with
  | .ok (some manifest) =>
    signatures.filterMap fun (tag, s) =>
      (s.packages.find? fun p => manifest.packages.contains (Text.lower p)).map
        fun p => ⟨tag, .composer, p⟩
  | _ => []

/-- The ecosystems of the plugin at an absolute path, by its headers, then its code, then its
packages. What is no directory belongs to no ecosystem. -/
def detect (d : Detector) (tree : Node) (root : String) : Result :=
  if FileTree.isDir tree root then
    let headers := (mainContents [] (rootContents tree root)).flatMap (headerEvidence d.signatures)
    let code := (searchedFiles tree root d.maxFiles).flatMap (codeEvidence tree root d.signatures)
    (headers ++ code ++ packageEvidence tree root d.signatures).foldl Result.add {}
  else {}

end PluginAudit.Ecosystem
