import PluginAudit.Text.Letter

/-!
Text patterns as data: sets of characters, sequences, ordered choice, repetition, groups and edges.
-/

namespace PluginAudit

structure CharSet where
  ranges : List (Char × Char)
  /-- Stands for the characters outside the ranges. -/
  negated : Bool := false
  /-- Letters in the ranges stand for all letters equal to them up to case. -/
  anyCase : Bool := false
deriving DecidableEq

namespace CharSet

def inRanges (s : CharSet) (c : Char) : Bool :=
  s.ranges.any fun (lo, hi) => lo ≤ c && c ≤ hi

/-- Whether a character lies in one of the ranges up to case. -/
def inRangesAnyCase (s : CharSet) (c : Char) : Bool :=
  let folded := Text.foldChar c
  s.inRanges c || s.inRanges folded || s.inRanges folded.toUpper ||
    s.ranges.any fun (lo, hi) => lo == hi && Text.foldChar lo == folded

def mem (s : CharSet) (c : Char) : Bool :=
  (if s.anyCase then s.inRangesAnyCase c else s.inRanges c) != s.negated

def single (c : Char) : CharSet := ⟨[(c, c)], false, false⟩

def ofString (s : String) : CharSet := ⟨s.toList.map fun c => (c, c), false, false⟩

def union (a b : CharSet) : CharSet := ⟨a.ranges ++ b.ranges, false, a.anyCase || b.anyCase⟩

def compl (s : CharSet) : CharSet := { s with negated := !s.negated }

def fold (s : CharSet) : CharSet := { s with anyCase := true }

def digit : CharSet := ⟨[('0', '9')], false, false⟩

def letter : CharSet := ⟨[('A', 'Z'), ('a', 'z'), ('_', '_')], false, false⟩

def wordChar : CharSet := ⟨[('0', '9'), ('A', 'Z'), ('_', '_'), ('a', 'z')], false, false⟩

/-- The white space of ASCII apart from the vertical tab. -/
def space : CharSet := ⟨[('\t', '\n'), ('\x0c', '\r'), (' ', ' ')], false, false⟩

def notNewline : CharSet := ⟨[('\n', '\n')], true, false⟩

def all : CharSet := ⟨[], true, false⟩

end CharSet

/-- A condition on a place between two characters. -/
inductive Edge where
  | textStart
  | textEnd
  | lineStart
  | lineEnd
  | word
  | notWord
deriving DecidableEq

/-- A text pattern. Of two alternatives the first that leads to a match is taken. -/
inductive Pattern where
  | empty
  | set (s : CharSet)
  | seq (p q : Pattern)
  | alt (p q : Pattern)
  | many (greedy : Bool) (p : Pattern)
  | group (index : Nat) (p : Pattern)
  | edge (e : Edge)
deriving DecidableEq

namespace Pattern

def cat : List Pattern → Pattern
  | [] => .empty
  | [p] => p
  | p :: ps => .seq p (cat ps)

def oneOf : List Pattern → Pattern
  | [] => .set ⟨[], false, false⟩
  | [p] => p
  | p :: ps => .alt p (oneOf ps)

def literal (s : String) : Pattern := cat (s.toList.map fun c => .set (.single c))

def literalAnyCase (s : String) : Pattern :=
  cat (s.toList.map fun c => .set (CharSet.single c).fold)

def words (ws : List String) : Pattern := oneOf (ws.map literal)

def star (p : Pattern) : Pattern := .many true p

def starLazy (p : Pattern) : Pattern := .many false p

def plus (p : Pattern) : Pattern := .seq p (.many true p)

def plusLazy (p : Pattern) : Pattern := .seq p (.many false p)

def opt (p : Pattern) : Pattern := .alt p .empty

def optLazy (p : Pattern) : Pattern := .alt .empty p

def anyOf (s : String) : Pattern := .set (.ofString s)

def noneOf (s : String) : Pattern := .set (CharSet.ofString s).compl

def spaces : Pattern := star (.set .space)

def spaces1 : Pattern := plus (.set .space)

def wordRun : Pattern := plus (.set .wordChar)

def identifier : Pattern := .seq (.set .letter) (star (.set .wordChar))

def wordEdge : Pattern := .edge .word

def textStart : Pattern := .edge .textStart

def textEnd : Pattern := .edge .textEnd

def lineStart : Pattern := .edge .lineStart

def lineEnd : Pattern := .edge .lineEnd

end Pattern

end PluginAudit
