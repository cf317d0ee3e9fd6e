import PluginAudit.FileTree.Resolve
import PluginAudit.Pattern.Search

/-!
Listing files by a path with wildcards, taken name by name: a star stands for any run of characters,
a question mark for one, brackets for a set, and a backslash takes the next character as it is.
-/

namespace PluginAudit.FileTree.Wildcard

open Pattern

def isSpecial (c : Char) : Bool := c == '*' || c == '?' || c == '[' || c == '\\'

/-- One end of a range in brackets, with what follows. -/
def rangeEnd? : List Char → Option (Char × List Char)
  | '\\' :: c :: d :: rest => some (c, d :: rest)
  | '\\' :: _ => none
  | c :: d :: rest => if c == '-' || c == ']' then none else some (c, d :: rest)
  | _ => none

/-- The ranges up to the closing bracket; there is at least one. -/
def ranges? : Nat → Bool → List Char → Option (List (Char × Char) × List Char)
  | 0, _, _ => none
  | fuel + 1, some', s =>
    match some', s with
    | true, ']' :: rest => some ([], rest)
    | _, s => do
      let (lo, rest) ← rangeEnd? s
      let (hi, rest) ← match rest with
        | '-' :: rest => rangeEnd? rest
        | rest => some (lo, rest)
      let (more, rest) ← ranges? fuel true rest
      return ((lo, hi) :: more, rest)

def parse? : Nat → List Char → Option (List Pattern)
  | 0, _ => none
  | fuel + 1, s =>
    match s with
    | [] => some []
    | '*' :: rest => (parse? fuel rest).map (star (noneOf "/") :: ·)
    | '?' :: rest => (parse? fuel rest).map (noneOf "/" :: ·)
    | '[' :: rest => do
      let (negated, rest) := match rest with
        | '^' :: rest => (true, rest)
        | rest => (false, rest)
      let (ranges, rest) ← ranges? (rest.length + 1) false rest
      let more ← parse? fuel rest
      return .set ⟨ranges, negated, false⟩ :: more
    | ['\\'] => none
    | '\\' :: c :: rest => (parse? fuel rest).map (.set (.single c) :: ·)
    | c :: rest => (parse? fuel rest).map (.set (.single c) :: ·)

def ofName? (name : String) : Option Pattern :=
  (parse? (name.length + 1) name.toList).map fun ps => .cat (ps ++ [textEnd])

def step (tree : Node) (dirs : List String) (name : String) : List String :=
  if name.toList.any isSpecial then
    match ofName? name with
    | none => []
    | some p => dirs.flatMap fun dir =>
      match stat tree dir with
      | .ok n => (n.entries.filter fun e => (p.matchAt (Cursor.start e.1.toList)).isSome).map
          fun e => Path.join [dir, e.1]
      | .error _ => []
  else
    let paths := dirs.map fun dir => Path.join [dir, name]
    paths.filter fun path => match resolveParent tree path with
      | .ok place => (tree.find? place).isSome
      | .error _ => false

/-- The paths that an absolute path with wildcards describes; none if it is malformed. -/
def expand (tree : Node) (path : String) : List String :=
  let names := steps path
  if names.all fun name => (ofName? name).isSome then names.foldl (step tree) ["/"] else []

end PluginAudit.FileTree.Wildcard
