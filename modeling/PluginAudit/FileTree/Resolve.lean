import PluginAudit.FileTree.Node
import PluginAudit.Path
import PluginAudit.Text.Utf8

/-!
Following paths through a file tree. A path is resolved name by name: a link is replaced by its
target, `..` goes to the parent, and the number of links that may be followed is limited.
-/

namespace PluginAudit

inductive FsCause where
  | notFound
  | notDirectory
  | isDirectory
  | tooManyLinks
  | leavesRoot
  | alreadyExists
deriving DecidableEq, Repr

def FsCause.message : FsCause → String
  | .notFound => "no such file or directory"
  | .notDirectory => "not a directory"
  | .isDirectory => "is a directory"
  | .tooManyLinks => "too many levels of symbolic links"
  | .leavesRoot => "path escapes from parent"
  | .alreadyExists => "file exists"

structure FsError where
  operation : String
  path : String
  cause : FsCause
deriving DecidableEq, Repr

def FsError.message (e : FsError) : String :=
  e.operation ++ " " ++ e.path ++ ": " ++ e.cause.message

namespace FileTree

/-- How many links the system follows in one path. -/
def maxLinks : Nat := 40

/-- The names on the way that a path describes, `.` left out. -/
def steps (path : String) : List String := Path.components path

/-- The place that `todo` leads to from the directory at `here`. Where a link is met, `leap` goes on
with its target, the directory it is in and the names that are left. -/
def followNames (tree : Node)
    (leap : String → List String → List String → Except FsCause (List String)) :
    (here todo : List String) → Except FsCause (List String)
  | here, [] => .ok here
  | here, ".." :: rest => followNames tree leap here.dropLast rest
  | here, name :: rest =>
    match tree.find? (here ++ [name]) with
    | none => .error .notFound
    | some (.dir _) => followNames tree leap (here ++ [name]) rest
    | some (.file _ _) => if rest.isEmpty then .ok (here ++ [name]) else .error .notDirectory
    | some (.link target) => leap target here rest

/-- The place that `todo` leads to from the directory at `here`, with at most `links` links
followed. -/
def follow (tree : Node) : (links : Nat) → (here todo : List String) → Except FsCause (List String)
  | 0 => followNames tree fun _ _ _ => .error .tooManyLinks
  | links + 1 => followNames tree fun target here rest =>
    follow tree links (if Path.isAbsolute target then [] else here) (steps target ++ rest)

theorem follow_zero (tree : Node) :
    follow tree 0 = followNames tree fun _ _ _ => .error .tooManyLinks :=
  rfl

theorem follow_succ (tree : Node) (links : Nat) :
    follow tree (links + 1) = followNames tree fun target here rest =>
      follow tree links (if Path.isAbsolute target then [] else here) (steps target ++ rest) := rfl

attribute [irreducible] follow

def resolve (tree : Node) (path : String) : Except FsCause (List String) :=
  follow tree maxLinks [] (steps path)

/-- The place of an absolute path, its last name not followed if that is a link. -/
def resolveParent (tree : Node) (path : String) : Except FsCause (List String) :=
  match (steps path).getLast? with
  | none => .ok []
  | some name =>
    match follow tree maxLinks [] (steps path).dropLast with
    | .error cause => .error cause
    | .ok parent => .ok (parent ++ [name])

def stat (tree : Node) (path : String) : Except FsCause Node :=
  match resolve tree path with
  | .error cause => .error cause
  | .ok place => match tree.find? place with
    | some n => .ok n
    | none => .error .notFound

def isDir (tree : Node) (path : String) : Bool :=
  match stat tree path with
  | .ok n => n.isDir
  | .error _ => false

def names (tree : Node) (path : String) : Except FsError (List String) :=
  match stat tree path with
  | .error cause => .error ⟨"open", path, cause⟩
  | .ok (.dir entries) => .ok (entries.map (·.1))
  | .ok _ => .error ⟨"readdirent", path, .notDirectory⟩

def read (tree : Node) (path : String) : Except FsError Bytes :=
  match stat tree path with
  | .error cause => .error ⟨"open", path, cause⟩
  | .ok (.file content _) =>
    if Path.asksDirectory path then .error ⟨"open", path, .notDirectory⟩ else .ok content
  | .ok _ => .error ⟨"read", path, .isDirectory⟩

end FileTree

end PluginAudit
