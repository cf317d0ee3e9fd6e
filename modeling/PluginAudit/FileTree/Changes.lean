import PluginAudit.FileTree.Walk

/-!
What was written between two states of a file tree.
-/

namespace PluginAudit.FileTree

def contentAt? (tree : Node) (place : List String) : Option Bytes :=
  match tree.find? place with
  | some (.file content _) => some content
  | _ => none

/-- The files of a tree that another tree does not have with the same content, by their absolute
paths. -/
def written (old new : Node) : List (String × Bytes) :=
  (leaves (fun _ _ => false) new).filterMap fun (path, n) =>
    match n with
    | .file content _ =>
      if contentAt? old (Path.components path) = some content then none else
        some ("/" ++ path, content)
    | _ => none

def sameFiles (old new : Node) : Bool := (written old new).isEmpty && (written new old).isEmpty

end PluginAudit.FileTree
