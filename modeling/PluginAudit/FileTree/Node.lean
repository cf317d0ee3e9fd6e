import PluginAudit.Table
import PluginAudit.Text.Blank

/-!
File trees as values: files with their bytes, symbolic links and directories with their entries in
increasing order of names. A place in a tree is the list of names on the way to it.
-/

namespace PluginAudit

abbrev Bytes := List UInt8

def bytesOf (s : String) : Bytes := s.toUTF8.data.toList

/-- How an executable file answers, with what it prints and the status it ends with: when it checks
the file at a path, and when it runs code. -/
structure Program where
  check : String → String × Int
  eval : String × Int

/-- What a file can be used for besides reading it. -/
inductive FileMode where
  | plain
  | executable
  | program (answers : Program)

inductive Node where
  | file (content : Bytes) (mode : FileMode)
  | link (target : String)
  | dir (entries : List (String × Node))

namespace Node

instance : Inhabited Node := ⟨.dir []⟩

def emptyDir : Node := .dir []

def isDir : Node → Bool
  | .dir _ => true
  | _ => false

def isFile : Node → Bool
  | .file _ _ => true
  | _ => false

/-- The node at a place, links not followed. -/
def find? : List String → Node → Option Node
  | [], n => some n
  | name :: rest, .dir entries =>
    match Table.get? name entries with
    | some child => find? rest child
    | none => none
  | _ :: _, _ => none

/-- Puts the last node at a place of the first. Missing directories on the way are made, and what is
no directory there gives way to one. -/
def put : List String → Node → Node → Node
  | [], _, new => new
  | name :: rest, .dir entries, new =>
    .dir (Table.insert name (put rest ((Table.get? name entries).getD emptyDir) new) entries)
  | name :: rest, _, new => .dir [(name, put rest emptyDir new)]

def erase : List String → Node → Node
  | [name], .dir entries => .dir (entries.filter fun e => e.1 != name)
  | name :: rest, .dir entries =>
    match Table.get? name entries with
    | some child => .dir (Table.insert name (erase rest child) entries)
    | none => .dir entries
  | _, n => n

/-- The entries of a directory in increasing order of names. -/
def entries : Node → List (String × Node)
  | .dir entries => entries
  | _ => []

end Node

end PluginAudit
