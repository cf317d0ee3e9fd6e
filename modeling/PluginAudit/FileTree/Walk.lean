import PluginAudit.FileTree.Resolve

/-!
What lies below a directory: files and links in lexical order, directories entered unless they are
to be skipped.
-/

namespace PluginAudit.FileTree

def childPath (dir name : String) : String := if dir = "" then name else dir ++ "/" ++ name

mutual
/-- The leaves of a node at a relative path. A directory is skipped by its name and path. -/
def leavesAt (skip : String → String → Bool) (name path : String) : Node → List (String × Node)
  | .dir entries => if skip name path then [] else leavesIn skip path entries
  | .file content mode => [(path, .file content mode)]
  | .link target => [(path, .link target)]

def leavesIn (skip : String → String → Bool) (dir : String) :
    List (String × Node) → List (String × Node)
  | [] => []
  | entry :: entries => leavesOf skip dir entry ++ leavesIn skip dir entries

def leavesOf (skip : String → String → Bool) (dir : String) :
    String × Node → List (String × Node)
  | (name, n) => leavesAt skip name (childPath dir name) n
end

/-- The files and links below a directory by their relative paths. The directory itself is never
skipped, and what is no directory has nothing below it. -/
def leaves (skip : String → String → Bool) : Node → List (String × Node)
  | .dir entries => leavesIn skip "" entries
  | _ => []

end PluginAudit.FileTree
