import PluginAudit.Detector.Basic

/-!
Guards: checks that a class exists, with the lines they cover. A check covers the block that opens
on its line or right after it, or else its own line and the next. A negated check whose block leaves
the file early also speaks for the rest of the file.
-/

namespace PluginAudit.Detector

open Pattern Source

/-- A check that a class exists: its name in lower case and the lines it covers, counted from
zero. -/
structure Guard where
  name : String
  first : Nat
  last : Nat
  negated : Bool := false
deriving DecidableEq, Repr

namespace Guard

def nameRun : Pattern := plus (.set ((CharSet.ofString "\\").union .wordChar))

/-- A check, with its negation and the name in quotes or before the class constant. -/
def check : Pattern :=
  .cat [opt (.group 1 (.seq (literal "!") spaces)), wordEdge,
    words ["class", "interface", "trait", "enum"], literal "_exists", spaces, literal "(", spaces,
    oneOf [.cat [anyOf "\"'", star (literal "\\"), .group 2 nameRun, anyOf "\"'"],
      .cat [opt (literal "\\"), .group 3 nameRun, literal "::class"]]]

def leaving : Pattern := .cat [wordEdge, words ["return", "exit", "die"], wordEdge]

/-- Follows the braces of a line: nothing if the block closes on it, else the depth and whether the
block has opened. -/
def followBraces (depth : Int) (opened : Bool) : List Char → Option (Int × Bool)
  | [] => some (depth, opened)
  | c :: rest =>
    let depth := if c == '\x7b' then depth + 1 else if c == '\x7d' then depth - 1 else depth
    let opened := opened || c == '\x7b'
    if opened && depth == 0 then none else followBraces depth opened rest

def startsBlock (line : List Char) : Bool := (Text.trimChars line).head? == some '\x7b'

/-- The line where a block closes, looking from line `index` on; nothing if no block opens on the
first line or right after it. -/
def blockEndFrom (depth : Int) (opened first : Bool) (index : Nat) : List (List Char) → Option Nat
  | [] => if opened then some (index - 1) else none
  | line :: lines =>
    let line := clean line
    if !opened && !first && !startsBlock line then none
    else match followBraces depth opened line with
      | none => some index
      | some (depth, opened) => blockEndFrom depth opened false (index + 1) lines

def blockEnd? (lines : List (List Char)) (start : Nat) : Option Nat :=
  blockEndFrom 0 false true start (lines.drop start)

def leavesEarly (lines : List (List Char)) (first last : Nat) : Bool :=
  ((lines.drop first).take (last + 1 - first)).any fun line => leaving.test (clean line)

def singleSeparators : List Char → List Char
  | '\\' :: '\\' :: rest => '\\' :: singleSeparators rest
  | c :: rest => c :: singleSeparators rest
  | [] => []

def ofMatch (lines : List (List Char)) (index : Nat) (m : Match) : List Guard :=
  let written := if (m.group 2).isEmpty then m.group 3 else m.group 2
  let name := Text.lower (normalName (String.ofList (singleSeparators written)))
  let negated := !(m.group 1).isEmpty
  match blockEnd? lines index with
  | none => [⟨name, index, min (index + 1) (lines.length - 1), negated⟩]
  | some last =>
    let guard : Guard := ⟨name, index, last, negated⟩
    if negated && leavesEarly lines index last then
      [guard, ⟨name, last, lines.length - 1, false⟩]
    else [guard]

def all (lines : List (List Char)) : List Guard :=
  lines.zipIdx.flatMap fun (line, index) =>
    (check.findAll (stripComments line)).flatMap (ofMatch lines index)

def reaches (g : Guard) (index : Nat) : Bool := decide (g.first ≤ index ∧ index ≤ g.last)

/-- Whether the use of a class on a line is covered by a check that it exists. -/
def covers (guards : List Guard) (name full : String) (index : Nat) : Bool :=
  guards.any fun g => !g.negated && g.reaches index &&
    (g.name == Text.lower (normalName name) || g.name == Text.lower full ||
      lastSegment g.name == Text.lower (lastSegment name))

/-- Whether the declaration of a class on a line is covered by a check that it does not exist. -/
def deniesBefore (guards : List Guard) (name : String) (index : Nat) : Bool :=
  guards.any fun g => g.negated && g.reaches index && lastSegment g.name == Text.lower name

end Guard

end PluginAudit.Detector
