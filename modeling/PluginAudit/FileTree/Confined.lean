import PluginAudit.FileTree.Resolve
import PluginAudit.Text.Lines

/-!
Reading files confined to a directory. A path is followed from the directory and must not leave it:
neither by its own steps, nor by a link with an absolute target, nor by a link with too many steps
up.
-/

namespace PluginAudit

inductive ReadError where
  /-- The path lies outside the root by its text alone. -/
  | escapesRoot (target : String)
  | openRoot (what : String) (cause : FsError)
  | file (cause : FsError)
deriving DecidableEq

def ReadError.message : ReadError → String
  | .escapesRoot target => "path escapes root: " ++ target
  | .openRoot what cause => "open " ++ what ++ ": " ++ cause.message
  | .file cause => cause.message

/-- The failed operation behind a failed reading, unless the path was refused by its text. -/
def ReadError.cause? : ReadError → Option FsCause
  | .escapesRoot _ => none
  | .openRoot _ e => some e.cause
  | .file e => some e.cause

def ReadError.isMissing (e : ReadError) : Bool := e.cause? == some .notFound

namespace FileTree

def maxConfinedLinks : Nat := 8

/-- The place below the directory `top` that `todo` leads to from `here`, which is below it. Links
are left to `leap`, as in `followNames`. -/
def followNamesConfined (top : Node)
    (leap : String → List String → List String → Except FsCause (List String)) :
    (here todo : List String) → Except FsCause (List String)
  | here, [] => .ok here
  | here, ".." :: rest =>
    if here.isEmpty then .error .leavesRoot else followNamesConfined top leap here.dropLast rest
  | here, name :: rest =>
    match top.find? (here ++ [name]) with
    | none => .error .notFound
    | some (.dir _) => followNamesConfined top leap (here ++ [name]) rest
    | some (.file _ _) => if rest.isEmpty then .ok (here ++ [name]) else .error .notDirectory
    | some (.link target) => leap target here rest

def followConfined (top : Node) :
    (links : Nat) → (here todo : List String) → Except FsCause (List String)
  | 0 => followNamesConfined top fun _ _ _ => .error .tooManyLinks
  | links + 1 => followNamesConfined top fun target here rest =>
    if Path.isAbsolute target then .error .leavesRoot else
      followConfined top links here (steps target ++ rest)

theorem followConfined_zero (top : Node) :
    followConfined top 0 = followNamesConfined top fun _ _ _ => .error .tooManyLinks := rfl

theorem followConfined_succ (top : Node) (links : Nat) :
    followConfined top (links + 1) = followNamesConfined top fun target here rest =>
      if Path.isAbsolute target then .error .leavesRoot
      else followConfined top links here (steps target ++ rest) := rfl

attribute [irreducible] followConfined

/-- The content of the file at a relative path below the directory `top`, which is shown as
`topPath`. -/
def readConfined (top : Node) (topPath relative : String) : Except FsError Bytes :=
  match followConfined top maxConfinedLinks [] (steps relative) with
  | .error cause => .error ⟨"openat", relative, cause⟩
  | .ok place => match top.find? place with
    | some (.file content _) => .ok content
    | some _ => .error ⟨"read", Path.join [topPath, relative], .isDirectory⟩
    | none => .error ⟨"openat", relative, .notFound⟩

def openDir (tree : Node) (path : String) : Except FsError Node :=
  match stat tree path with
  | .error cause => .error ⟨"open", path, cause⟩
  | .ok n => if n.isDir then .ok n else .error ⟨"open", path, .notDirectory⟩

/-- The content of a file below a root. Relative paths are seen from `here`. -/
def readUnder (tree : Node) (here root target : String) : Except ReadError Bytes :=
  let rootPath := Path.absolute here root
  let targetPath := Path.absolute here target
  match Path.relative? rootPath targetPath with
  | none => .error (.escapesRoot target)
  | some relative =>
    if Path.leaves relative then .error (.escapesRoot target)
    else match openDir tree rootPath with
      | .error e => .error (.openRoot "root" e)
      | .ok top => match readConfined top rootPath relative with
        | .error e => .error (.file e)
        | .ok content => .ok content

/-- The content of a file, confined to the directory it is in. -/
def readBeside (tree : Node) (here target : String) : Except ReadError Bytes :=
  let targetPath := Path.absolute here target
  let parent := Path.dir targetPath
  match openDir tree parent with
  | .error e => .error (.openRoot "parent root" e)
  | .ok top => match readConfined top parent (Path.base targetPath) with
    | .error e => .error (.file e)
    | .ok content => .ok content

/-- The lines of a file below a root; without a root the file is confined to its directory. -/
def readLines (tree : Node) (here root target : String) : Except ReadError (List (List Char)) :=
  let content := if root = "" then readBeside tree here target else readUnder tree here root target
  content.map fun bytes => Text.lineChars (Text.decodeBytes bytes)

end FileTree

end PluginAudit
