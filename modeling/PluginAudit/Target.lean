import PluginAudit.FileTree.Resolve

/-!
What a scan is about: a directory with all that is below it, or one file.
-/

namespace PluginAudit

/-- What a scan is about. For a single file the root is the directory it is in. -/
structure Target where
  root : String
  file : Option String
deriving DecidableEq, Repr

namespace Target

inductive Error where
  | notFound (path : String)
  | inaccessible (cause : FsError)
deriving DecidableEq

def Error.message : Error → String
  | .notFound path => "plugin path not found: " ++ path
  | .inaccessible cause => "stat plugin path: " ++ cause.message

/-- The target that a path describes, seen from `here`; no path stands for `here`. -/
def ofPath (tree : Node) (here path : String) : Except Error Target :=
  let place := Path.absolute here (if path = "" then "." else path)
  match FileTree.stat tree place with
  | .error .notFound => .error (.notFound path)
  | .error cause => .error (.inaccessible ⟨"stat", place, cause⟩)
  | .ok (.dir _) => .ok ⟨place, none⟩
  | .ok _ => .ok ⟨Path.dir place, some place⟩

end Target

end PluginAudit
