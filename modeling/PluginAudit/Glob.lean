import PluginAudit.Pattern.Search
import PluginAudit.Text.Quoted
import PluginAudit.Text.Utf8

/-!
Globs over slash-separated paths: a star stands for a run of characters without slash, two stars for
any run, a question mark for one character that is no slash, brackets for a set of characters and
braces for alternatives. A glob is turned into a text pattern that has to cover a whole path.
-/

namespace PluginAudit

inductive Glob.Piece where
  | text (s : List Char)
  | run
  | anything
  | one
  | set (s : CharSet)
  | pattern (p : Pattern)

structure Glob where
  covers : String → Bool

namespace Glob

open Pattern

/-! ### Patterns of pieces -/

def textPattern (s : List Char) : Pattern := cat (s.map fun c => .set (.single c))

def Piece.toPattern : Piece → Pattern
  | .text s => textPattern s
  | .run => star (noneOf "/")
  | .anything => star (.set .all)
  | .one => noneOf "/"
  | .set s => .set s
  | .pattern p => p

/-- The texts that start with `a` and end with `b` where the two overlap. -/
def overlaps (a b : List Char) : List (List Char) :=
  (List.range (min a.length b.length)).filterMap fun n =>
    let shared := b.take (n + 1)
    if shared.isSuffixOf a then some (a ++ b.drop (n + 1)) else none

/-- The pattern of a sequence of parts. Two texts with two stars between them cover every path that
starts with the one and ends with the other, so that `a/**/b` covers `a/b` too. -/
def sequence : List Piece → Pattern
  | [.text a, .anything, .text b] =>
    oneOf (.cat [textPattern a, star (.set .all), textPattern b] :: (overlaps a b).map textPattern)
  | pieces => .cat (pieces.map Piece.toPattern)

/-! ### Reading -/

structure Frame where
  closed : List Pattern := []
  pieces : List Piece := []

def Frame.add (f : Frame) (piece : Piece) : Frame :=
  match piece, f.pieces with
  | .text new, .text old :: rest => { f with pieces := .text (old ++ new) :: rest }
  | piece, pieces => { f with pieces := piece :: pieces }

def Frame.next (f : Frame) : Frame :=
  ⟨sequence f.pieces.reverse :: f.closed, []⟩

def Frame.pattern (f : Frame) : Pattern := oneOf f.next.closed.reverse

def closeAll (f : Frame) : List Frame → Frame
  | [] => f
  | outer :: stack => closeAll (outer.add (.pattern f.pattern)) stack

def listChars : List Char → Option (List Char × List Char)
  | [] => none
  | ']' :: rest => some ([], rest)
  | '\\' :: c :: rest => (listChars rest).map fun (cs, rest) => (c :: cs, rest)
  | '\\' :: [] => none
  | c :: rest => (listChars rest).map fun (cs, rest) => (c :: cs, rest)

/-- The set after an opening bracket, with what follows. A range stands alone in its brackets. -/
def bracketSet? (s : List Char) : Option (CharSet × List Char) :=
  let (negated, s) := match s with
    | '!' :: rest => (true, rest)
    | s => (false, s)
  match s with
  | lo :: '-' :: hi :: ']' :: rest =>
    if hi < lo then none else some (⟨[(lo, hi)], negated, false⟩, rest)
  | _ :: '-' :: _ => none
  | s => match listChars s with
    | some ([], _) => none
    | some (chars, rest) => some (⟨chars.map fun c => (c, c), negated, false⟩, rest)
    | none => none

/-- The parts of a glob. Commas and closing braces are plain characters outside braces, and braces
that stay open are closed at the end. -/
def readPieces : Nat → List Char → Frame → List Frame → Option Frame
  | 0, _, _, _ => none
  | fuel + 1, s, f, stack =>
    match s with
    | [] => some (closeAll f stack)
    | '\x7b' :: rest => readPieces fuel rest {} (f :: stack)
    | '[' :: rest =>
      match bracketSet? rest with
      | some (chars, rest) => readPieces fuel rest (f.add (.set chars)) stack
      | none => none
    | '?' :: rest => readPieces fuel rest (f.add .one) stack
    | '*' :: '*' :: rest => readPieces fuel rest (f.add .anything) stack
    | '*' :: rest => readPieces fuel rest (f.add .run) stack
    | '\\' :: c :: rest => readPieces fuel rest (f.add (.text [c])) stack
    | ['\\'] => some (closeAll f stack)
    | c :: rest =>
      match c, stack with
      | ',', _ :: _ => readPieces fuel rest f.next stack
      | '\x7d', outer :: stack => readPieces fuel rest (outer.add (.pattern f.pattern)) stack
      | c, stack => readPieces fuel rest (f.add (.text [c])) stack

def parse? (text : String) : Option Glob :=
  if text.toList.contains Text.replacement then none
  else (readPieces (text.length + 1) text.toList {} []).map fun f =>
    ⟨fun path => ((Pattern.seq f.pattern textEnd).matchAt (Cursor.start path.toList)).isSome⟩

end Glob

end PluginAudit
