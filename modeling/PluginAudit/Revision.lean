import PluginAudit.FileTree.Resolve
import PluginAudit.Text.Letter

/-!
The commit that is checked out in the repository around a directory. The head of a repository is a
commit, or it names a reference that leads to one.
-/

namespace PluginAudit.Revision

def maxReferences : Nat := 5

inductive Content where
  | commit (id : String)
  | reference (name : String)
deriving DecidableEq

/-- Forty digits to the base sixteen at the start of a text, if nothing or white space follows. -/
def commit? (s : List Char) : Option String :=
  let (digits, rest) := s.span fun c => c.isDigit || ('a' ≤ c && c ≤ 'f') || ('A' ≤ c && c ≤ 'F')
  if digits.length = 40 ∧ rest.head?.all Text.isSpace then some (Text.lower (String.ofList digits))
  else none

def content? (s : List Char) : Option Content :=
  if "ref:".toList.isPrefixOf s then some (.reference (String.ofList (Text.trimChars (s.drop 4))))
  else (commit? s).map .commit

def read? (tree : Node) (path : String) : Option Content :=
  (FileTree.read tree path).toOption.bind fun bytes => content? (Text.decodeBytes bytes)

def head? (tree : Node) (dir : String) : Option Content :=
  let inside (name : String) := Path.join [dir, ".git", name]
  if FileTree.isDir tree (inside "objects") && FileTree.isDir tree (inside "refs") then
    match read? tree (inside "HEAD") with
    | some (.reference name) => if name.startsWith "refs/" then some (.reference name) else none
    | c => c
  else none

def resolve? (tree : Node) (dir : String) : Nat → Content → Option String
  | _, .commit id => some id
  | 0, .reference _ => none
  | n + 1, .reference name =>
    (read? tree (Path.join [dir, ".git", name])).bind (resolve? tree dir n)

def upwards (dir : String) : List String :=
  let parts := Path.components dir
  (List.range (parts.length + 1)).reverse.map fun n => Path.ofComponents true (parts.take n)

/-- The commit that is checked out around an absolute directory path. -/
def checkedOut? (tree : Node) (dir : String) : Option String :=
  match (upwards dir).findSome? fun d => (head? tree d).map (d, ·) with
  | some (d, c) => resolve? tree d maxReferences c
  | none => none

end PluginAudit.Revision
