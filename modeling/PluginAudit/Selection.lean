import PluginAudit.FileTree.Walk
import PluginAudit.Glob
import PluginAudit.Json.Decode

/-!
Which files of a plugin are scanned: source files by their extension, outside the directories of
dependencies, tests and builds, and within what include and exclude globs leave.
-/

namespace PluginAudit.Selection

def skippedDirs : List String :=
  ["node_modules", "vendor", ".git", ".svn", ".hg", "tests", "test", "__tests__", "spec", "docs",
   "documentation", "dist", "build", ".github", ".vscode", ".idea", "wp-fatal-tester",
   ".wpfatal-cache"]

def skippedPaths : List String := ["assets/js", "assets/css"]

def skippedFiles : List String :=
  ["composer.json", "composer.lock", "package.json", "package-lock.json", "yarn.lock",
   "webpack.config.js", "gulpfile.js", "gruntfile.js", ".gitignore", ".gitattributes", "README.md",
   "CHANGELOG.md", "LICENSE", "LICENSE.txt"]

def isHidden (name : String) : Bool := name.toList.head? == some '.'

def skipsDir (name path : String) : Bool :=
  skippedDirs.contains name || skippedPaths.contains path || isHidden name

def isSource (path : String) : Bool := Text.sameFold (Path.extension path) ".php"

def scansFile (name : String) : Bool :=
  !(skippedFiles.contains name || isHidden name) && isSource name

/-! ### Globs -/

inductive Error where
  | invalidGlob (use : String) (glob : String)
deriving DecidableEq

def Error.message : Error → String
  | .invalidGlob use glob => "invalid " ++ use ++ " pattern " ++ Text.quote glob

/-- The globs of some texts, by a reader of globs. -/
def readGlobs (glob? : String → Option Glob) (use : String) : List String → Except Error (List Glob)
  | [] => .ok []
  | text :: texts =>
    let text := Text.trim text
    if text = "" then readGlobs glob? use texts
    else match glob? text with
      | none => .error (.invalidGlob use text)
      | some g => match readGlobs glob? use texts with
        | .ok globs => .ok (g :: globs)
        | .error e => .error e

structure Filter where
  included : List Glob := []
  excluded : List Glob := []

def Filter.ofTexts (glob? : String → Option Glob) (included excluded : List String) :
    Except Error Filter :=
  match readGlobs glob? "include" included with
  | .error e => .error e
  | .ok included => match readGlobs glob? "exclude" excluded with
    | .error e => .error e
    | .ok excluded => .ok ⟨included, excluded⟩

/-- Whether a relative path passes: no exclude glob covers it, and some include glob does if there
is one. -/
def Filter.passes (f : Filter) (path : String) : Bool :=
  !f.excluded.any (·.covers path) && (f.included.isEmpty || f.included.any (·.covers path))

/-! ### Listing -/

def toolPackage : String := "nhrrob/wp-fatal-tester"

/-- The files that every copy of the tool's own package has. -/
def toolFiles : List String := ["fataltest", "src/FatalTester.php", "composer.json"]

def manifestName? (content : Bytes) : Option String := do
  let json ← Json.parse? (Text.decodeBytes content)
  Json.intoRecord false [("name", Json.through id (fun v _ => v) Json.intoText)] json ""

def isToolPackage (tree : Node) (path : String) : Bool :=
  (toolFiles.all fun name => (FileTree.stat tree (Path.join [path, name])).toBool) &&
    match FileTree.read tree (Path.join [path, "composer.json"]) with
    | .ok content => manifestName? content == some toolPackage
    | .error _ => false

/-- The scanned files below an absolute directory path, by their full paths in increasing order. A
link in place of the directory is not followed. -/
def sources (tree : Node) (root : String) (filter : Filter) : Except FsError (List String) :=
  match FileTree.resolveParent tree root with
  | .error cause => .error ⟨"lstat", root, cause⟩
  | .ok place => match tree.find? place with
    | none => .error ⟨"lstat", root, .notFound⟩
    | some top =>
      let skip (name path : String) :=
        skipsDir name path || isToolPackage tree (Path.join [root, path])
      let found := (FileTree.leaves skip top).filter fun (path, n) =>
        n.isFile && scansFile (Path.base path) && filter.passes path
      .ok (sortedNames (found.map fun (path, _) => Path.join [root, path]))

end PluginAudit.Selection
