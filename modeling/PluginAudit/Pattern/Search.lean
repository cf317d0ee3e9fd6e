import PluginAudit.Pattern.Basic

/-!
Searching a text for a pattern. A match starts as far left as possible, and among the matches that
start there it is the one that the order of alternatives and the greed of repetitions prefer.
-/

namespace PluginAudit

structure Cursor where
  /-- What precedes the place, nearest character first. -/
  past : List Char
  rest : List Char
deriving DecidableEq

structure Span where
  /-- What precedes the piece, nearest character first. -/
  past : List Char
  text : List Char
  after : List Char
deriving DecidableEq

/-- A match with the pieces that its groups took, latest first. -/
structure Match extends Span where
  groups : List (Nat × Span)
deriving DecidableEq

namespace Cursor

def start (s : List Char) : Cursor := ⟨[], s⟩

def spanTo (c d : Cursor) : Span :=
  ⟨c.past, c.rest.take (c.rest.length - d.rest.length), d.rest⟩

def wordBefore (c : Cursor) : Bool :=
  match c.past with
  | [] => false
  | x :: _ => CharSet.wordChar.mem x

def wordAfter (c : Cursor) : Bool :=
  match c.rest with
  | [] => false
  | x :: _ => CharSet.wordChar.mem x

def holds (c : Cursor) : Edge → Bool
  | .textStart => c.past.isEmpty
  | .textEnd => c.rest.isEmpty
  | .lineStart => c.past.isEmpty || c.past.head? == some '\n'
  | .lineEnd => c.rest.isEmpty || c.rest.head? == some '\n'
  | .word => c.wordBefore != c.wordAfter
  | .notWord => c.wordBefore == c.wordAfter

end Cursor

namespace Pattern

abbrev Groups := List (Nat × Span)

/-- What is done after a match of a part: it succeeds with a result or refuses. -/
abbrev Next (α : Type) := Cursor → Groups → Option α

/-- Repeats `body` as long as it moves on, and then goes on with `next`. A greedy repetition tries
another round first, a lazy one tries to go on first. -/
def repeated (greedy : Bool) (body : Cursor → Groups → Next α → Option α) (next : Next α) :
    Nat → Cursor → Groups → Option α
  | 0, c, groups => next c groups
  | fuel + 1, c, groups =>
    let again := fun _ : Unit => body c groups fun d groups =>
      if d.rest.length < c.rest.length then repeated greedy body next fuel d groups else none
    let go := fun _ : Unit => next c groups
    if greedy then (again ()).orElse go else (go ()).orElse again

/-- Matches a pattern at a place and goes on with `next` after each way to match, the preferred one
first, until one succeeds. -/
def run : Pattern → Cursor → Groups → Next α → Option α
  | .empty, c, groups, next => next c groups
  | .set s, c, groups, next =>
    match c.rest with
    | [] => none
    | x :: rest => if s.mem x then next ⟨x :: c.past, rest⟩ groups else none
  | .seq p q, c, groups, next => p.run c groups fun d groups => q.run d groups next
  | .alt p q, c, groups, next => (p.run c groups next).orElse fun _ => q.run c groups next
  | .many greedy p, c, groups, next => repeated greedy p.run next c.rest.length c groups
  | .group i p, c, groups, next =>
    p.run c groups fun d groups => next d ((i, c.spanTo d) :: groups)
  | .edge e, c, groups, next => if c.holds e then next c groups else none

def matchAt (p : Pattern) (c : Cursor) : Option Match :=
  p.run c [] fun d groups => some { c.spanTo d with groups }

def findFrom (p : Pattern) (past rest : List Char) : Option Match :=
  match p.matchAt ⟨past, rest⟩ with
  | some m => some m
  | none => match rest with
    | [] => none
    | x :: rest => findFrom p (x :: past) rest
termination_by structural rest

def find? (p : Pattern) (s : List Char) : Option Match := p.findFrom [] s

def test (p : Pattern) (s : List Char) : Bool := (p.find? s).isSome

def occursIn (p : Pattern) (s : String) : Bool := p.test s.toList

/-- The matches from a place on, from left to right without overlap. An empty match right after the
match before it does not count. -/
def findAllFrom (p : Pattern) : Nat → Cursor → Bool → List Match
  | 0, _, _ => []
  | fuel + 1, c, afterMatch =>
    match p.findFrom c.past c.rest with
    | none => []
    | some m =>
      let stop : Cursor := ⟨m.text.reverse ++ m.past, m.after⟩
      if stop.rest.length = c.rest.length then
        -- an empty match right here
        let more := match c.rest with
          | [] => []
          | x :: rest => findAllFrom p fuel ⟨x :: c.past, rest⟩ false
        if afterMatch then more else m :: more
      else m :: findAllFrom p fuel stop true

def findAll (p : Pattern) (s : List Char) : List Match :=
  p.findAllFrom (s.length + 1) (.start s) false

def splitMatches (rest : List Char) : List Match → List (List Char)
  | [] => [rest]
  | m :: ms => rest.take (rest.length - m.after.length - m.text.length) :: splitMatches m.after ms

end Pattern

namespace Match

def group (m : Match) (i : Nat) : List Char :=
  match m.groups.find? fun g => g.1 == i with
  | some (_, span) => span.text
  | none => []

def groupText (m : Match) (i : Nat) : String := String.ofList (m.group i)

end Match

end PluginAudit
