import PluginAudit.FileTree.Confined
import PluginAudit.Source.LineState

/-!
Source files as lists of lines.
-/

namespace PluginAudit.Source

structure File where
  path : String
  lines : List (List Char)
deriving DecidableEq

namespace File

def content (f : File) : List Char := ['\n'].intercalate f.lines

/-- The file at a path, confined to a root; without a root it is confined to its directory. -/
def load? (tree : Node) (here root path : String) : Option File :=
  match FileTree.readLines tree here root path with
  | .ok lines => some ⟨path, lines⟩
  | .error _ => none

/-- The lines with their numbers that are code: outside comments, heredocs and scripts. -/
def codeLines (f : File) : List (Nat × List Char) :=
  (numberedStates f.lines).filterMap fun (number, state, line) =>
    if state.skippable || state.script then none else some (number, line)

end File

end PluginAudit.Source
