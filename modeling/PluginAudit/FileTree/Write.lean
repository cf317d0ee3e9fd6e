import PluginAudit.FileTree.Confined

/-!
Changing a file tree: making directories, writing files through links or in place of them, and
making files that must not exist yet. A change of one step that fails leaves the tree as it was; a
change of several steps says what it leaves.
-/

namespace PluginAudit.FileTree

/-- A change that failed, and the tree that it leaves. -/
structure Failed where
  cause : FsError
  tree : Node

/-- The tree that a change leaves, whether it fails or not. -/
def left : Except Failed Node → Node
  | .ok tree => tree
  | .error failed => failed.tree

/-- The absolute paths of a path and the directories above it, the top one first. -/
def prefixes (path : String) : List String :=
  (List.range (steps path).length).map fun n => Path.ofComponents true ((steps path).take (n + 1))

def makeDir (tree : Node) (path : String) : Except FsError Node :=
  match stat tree path with
  | .ok (.dir _) => .ok tree
  | .ok _ => .error ⟨"mkdir", path, .notDirectory⟩
  | .error .notFound =>
    match resolveParent tree path with
    | .error cause => .error ⟨"mkdir", path, cause⟩
    | .ok place =>
      if (tree.find? place).isSome then .error ⟨"mkdir", path, .alreadyExists⟩
      else .ok (tree.put place .emptyDir)
  | .error cause => .error ⟨"mkdir", path, cause⟩

/-- Makes the directories of a path. Those that are made before one fails stay. -/
def makeDirs (tree : Node) (path : String) : Except Failed Node :=
  (prefixes path).foldlM (fun tree path => (makeDir tree path).mapError (⟨·, tree⟩)) tree

def modeAt (tree : Node) (place : List String) : FileMode :=
  match tree.find? place with
  | some (.file _ mode) => mode
  | _ => .plain

/-- Writes a file, through a link if there is one at its place. -/
def writeFile (tree : Node) (path : String) (content : Bytes) : Except FsError Node :=
  let write (place : List String) : Except FsError Node :=
    match tree.find? place with
    | some (.dir _) => .error ⟨"open", path, .isDirectory⟩
    | _ => .ok (tree.put place (.file content (modeAt tree place)))
  match resolve tree path with
  | .ok place => write place
  | .error .notFound =>
    match resolveParent tree path with
    | .ok place => write place
    | .error cause => .error ⟨"open", path, cause⟩
  | .error cause => .error ⟨"open", path, cause⟩

def createFile (tree : Node) (path : String) (content : Bytes) : Except FsError Node :=
  match resolveParent tree path with
  | .error cause => .error ⟨"open", path, cause⟩
  | .ok place =>
    if (tree.find? place).isSome then .error ⟨"open", path, .alreadyExists⟩
    else .ok (tree.put place (.file content .plain))

/-- Writes a file in place of what is at a path, also of a link, and makes the directories above it.
A directory does not give way. -/
def overwrite (tree : Node) (path : String) (content : Bytes) : Except Failed Node :=
  match makeDirs tree (Path.dir path) with
  | .error failed => .error failed
  | .ok tree => match resolveParent tree path with
    | .error cause => .error ⟨⟨"open", path, cause⟩, tree⟩
    | .ok place => match tree.find? place with
      | some (.dir _) => .error ⟨⟨"open", path, .isDirectory⟩, tree⟩
      | _ => .ok (tree.put place (.file content .plain))

/-- Puts a node at a path in place of what was there, if the directories above it can be made. -/
def replace (tree : Node) (path : String) (n : Node) : Node :=
  match makeDirs tree (Path.dir path) with
  | .error _ => tree
  | .ok tree => match resolveParent tree path with
    | .error _ => tree
    | .ok place => tree.put place n

def remove (tree : Node) (path : String) : Node :=
  match resolveParent tree path with
  | .error _ => tree
  | .ok place => tree.erase place

end PluginAudit.FileTree
