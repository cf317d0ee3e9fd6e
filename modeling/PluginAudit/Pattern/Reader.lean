import PluginAudit.Json.Reader
import PluginAudit.Pattern.Search

/-!
The text form of patterns: the usual regular expressions without look-around and back references.
Reading fails on a form that is not allowed, such as a class that is not closed, a repetition of
nothing or a repetition of a repetition.
-/

namespace PluginAudit.Pattern.Reader

open PluginAudit

structure Flags where
  anyCase : Bool := false
  multiline : Bool := false
  dotAll : Bool := false
  swapGreed : Bool := false

/-- What has been read: a value, the number of groups so far, and the rest of the text. -/
structure Reading (α : Type) where
  value : α
  groups : Nat
  rest : List Char

/-! ### Character sets -/

def charBefore (c : Char) : Char :=
  if c.toNat = 0xE000 then Char.ofNat 0xD7FF else Char.ofNat (c.toNat - 1)

def charAfter (c : Char) : Char :=
  if c.toNat = 0xD7FF then Char.ofNat 0xE000 else Char.ofNat (c.toNat + 1)

def lastChar : Char := Char.ofNat 0x10FFFF

/-- The gaps between ranges in increasing order, from a character on. -/
def gaps (low : Char) : List (Char × Char) → List (Char × Char)
  | [] => [(low, lastChar)]
  | (lo, hi) :: rest =>
    let here := if low < lo then [(low, charBefore lo)] else []
    if hi = lastChar then here else here ++ gaps (charAfter hi) rest

def complRanges (ranges : List (Char × Char)) : List (Char × Char) :=
  gaps (Char.ofNat 0) ranges

/-- The ranges of the digit, space and word classes and of their complements. -/
def classRanges? : Char → Option (List (Char × Char))
  | 'd' => some CharSet.digit.ranges
  | 's' => some CharSet.space.ranges
  | 'w' => some CharSet.wordChar.ranges
  | 'D' => some (complRanges CharSet.digit.ranges)
  | 'S' => some (complRanges CharSet.space.ranges)
  | 'W' => some (complRanges CharSet.wordChar.ranges)
  | _ => none

def namedRanges? : String → Option (List (Char × Char))
  | "alnum" => some [('0', '9'), ('A', 'Z'), ('a', 'z')]
  | "alpha" => some [('A', 'Z'), ('a', 'z')]
  | "ascii" => some [(Char.ofNat 0, Char.ofNat 127)]
  | "blank" => some [('\t', '\t'), (' ', ' ')]
  | "cntrl" => some [(Char.ofNat 0, Char.ofNat 31), (Char.ofNat 127, Char.ofNat 127)]
  | "digit" => some [('0', '9')]
  | "graph" => some [('!', '~')]
  | "lower" => some [('a', 'z')]
  | "print" => some [(' ', '~')]
  | "punct" => some [('!', '/'), (':', '@'), ('[', Char.ofNat 96), ('\x7b', '~')]
  | "space" => some [('\t', '\r'), (' ', ' ')]
  | "upper" => some [('A', 'Z')]
  | "word" => some CharSet.wordChar.ranges
  | "xdigit" => some [('0', '9'), ('A', 'F'), ('a', 'f')]
  | _ => none

def isOctal (c : Char) : Bool := '0' ≤ c && c ≤ '7'

def hexNumber? (digits : List Char) : Option Nat :=
  digits.foldl (fun n c => do
    let n ← n
    let d ← Json.hexValue? c
    some (n * 16 + d)) (some 0)

def escapedChar? : List Char → Option (Char × List Char)
  | [] => none
  | c :: rest =>
    if c = 'a' then some (Char.ofNat 7, rest)
    else if c = 'f' then some (Char.ofNat 12, rest)
    else if c = 'n' then some ('\n', rest)
    else if c = 'r' then some ('\r', rest)
    else if c = 't' then some ('\t', rest)
    else if c = 'v' then some (Char.ofNat 11, rest)
    else if c = 'x' then
      match rest with
      | '\x7b' :: more =>
        let (digits, after) := more.span (· != '\x7d')
        match after, hexNumber? digits with
        | _ :: after, some n =>
          if digits.isEmpty || 0x10FFFF < n then none else some (Char.ofNat n, after)
        | _, _ => none
      | a :: b :: after => (hexNumber? [a, b]).map fun n => (Char.ofNat n, after)
      | _ => none
    else if isOctal c then
      let (more, _) := (rest.take 2).span isOctal
      if c != '0' && more.isEmpty then none
      else
        let n := (c :: more).foldl (fun n d => n * 8 + (d.toNat - 48)) 0
        some (Char.ofNat n, rest.drop more.length)
    else if c.toNat < 0x80 && !c.isAlphanum then some (c, rest)
    else none

def className? : List Char → Option (List Char × List Char)
  | [] => none
  | ':' :: ']' :: after => some ([], after)
  | c :: rest => (className? rest).map fun (name, after) => (c :: name, after)

def namedClass? : List Char → Option (List (Char × Char))
  | '^' :: name => (namedRanges? (String.ofList name)).map complRanges
  | name => namedRanges? (String.ofList name)

def classChar? : List Char → Option (Char × List Char)
  | '\\' :: rest => escapedChar? rest
  | c :: rest => some (c, rest)
  | [] => none

/-- The ranges inside brackets up to the closing one; a bracket in first place is a character. -/
def classBody :
    Nat → Bool → List (Char × Char) → List Char → Option (List (Char × Char) × List Char)
  | 0, _, _, _ => none
  | fuel + 1, first, ranges, s =>
    match s with
    | [] => none
    | ']' :: rest => if first then single fuel ranges s else some (ranges, rest)
    | '[' :: ':' :: rest =>
      match className? rest with
      | none => single fuel ranges s
      | some (name, after) =>
        match namedClass? name with
        | some more => classBody fuel false (ranges ++ more) after
        | none => none
    | '\\' :: c :: rest =>
      match classRanges? c with
      | some more => classBody fuel false (ranges ++ more) rest
      | none => single fuel ranges s
    | _ => single fuel ranges s
where
  single (fuel : Nat) (ranges : List (Char × Char)) (s : List Char) :
      Option (List (Char × Char) × List Char) :=
    match classChar? s with
    | none => none
    | some (lo, rest) =>
      match rest with
      | '-' :: ']' :: _ => classBody fuel false (ranges ++ [(lo, lo)]) rest
      | '-' :: more =>
        match classChar? more with
        | none => none
        | some (hi, after) =>
          if hi < lo then none else classBody fuel false (ranges ++ [(lo, hi)]) after
      | _ => classBody fuel false (ranges ++ [(lo, lo)]) rest

def charClass? (flags : Flags) (s : List Char) : Option (Pattern × List Char) :=
  let (negated, body) := match s with
    | '^' :: rest => (true, rest)
    | rest => (false, rest)
  (classBody (body.length + 1) true [] body).map fun (ranges, after) =>
    (.set ⟨ranges, negated, flags.anyCase⟩, after)

/-! ### Repetition -/

def bounds? (s : List Char) : Option (Nat × Option Nat × List Char) :=
  let number (digits : List Char) : Nat := digits.foldl (fun n c => n * 10 + (c.toNat - 48)) 0
  let (low, rest) := s.span Char.isDigit
  if low.isEmpty || (1 < low.length && low.head? == some '0') then none
  else match rest with
    | '\x7d' :: after => some (number low, some (number low), after)
    | ',' :: '\x7d' :: after => some (number low, none, after)
    | ',' :: rest =>
      let (high, rest) := rest.span Char.isDigit
      match rest with
      | '\x7d' :: after =>
        if high.isEmpty || (1 < high.length && high.head? == some '0') then none
        else some (number low, some (number high), after)
      | _ => none
    | _ => none

/-- At most `n` more times, each only after the one before it. -/
def upTo (greedy : Bool) (p : Pattern) : Nat → Pattern
  | 0 => .empty
  | n + 1 =>
    let more := .seq p (upTo greedy p n)
    if greedy then .opt more else .optLazy more

def between (greedy : Bool) (p : Pattern) (low : Nat) : Option Nat → Pattern
  | none => .cat (List.replicate low p ++ [.many greedy p])
  | some high => .cat (List.replicate low p ++ [upTo greedy p (high - low)])

/-- The bounds of the sign of repetition that a text starts with, and what follows the sign. -/
def repetition? : List Char → Option (Nat × Option Nat × List Char)
  | '*' :: rest => some (0, none, rest)
  | '+' :: rest => some (1, none, rest)
  | '?' :: rest => some (0, some 1, rest)
  | '\x7b' :: rest => bounds? rest
  | _ => none

/-- Repeats a pattern within bounds, which are not too high nor the wrong way round; a question mark
after the sign turns the greed over. -/
def repeated? (flags : Flags) (p : Pattern) (low : Nat) (high : Option Nat) (rest : List Char) :
    Option (Pattern × List Char) :=
  if 1000 < low || 1000 < high.getD 0 || high.getD low < low then none
  else match rest with
    | '?' :: after => some (between flags.swapGreed p low high, after)
    | after => some (between (!flags.swapGreed) p low high, after)

/-! ### Groups and sequences -/

def setFlag? (on : Bool) (flags : Flags) : Char → Option Flags
  | 'i' => some { flags with anyCase := on }
  | 'm' => some { flags with multiline := on }
  | 's' => some { flags with dotAll := on }
  | 'U' => some { flags with swapGreed := on }
  | _ => none

/-- The flags of a group after its question mark, and whether the group has a body. -/
def readFlags : Bool → Bool → Flags → List Char → Option (Flags × Bool × List Char)
  | _, _, _, [] => none
  | on, needed, flags, c :: rest =>
    if c = ')' then if needed then none else some (flags, false, rest)
    else if c = ':' then if needed then none else some (flags, true, rest)
    else if c = '-' then if on then readFlags false true flags rest else none
    else match setFlag? on flags c with
      | some flags => readFlags on false flags rest
      | none => none

def groupName? (s : List Char) : Option (List Char) :=
  let (name, after) := s.span CharSet.wordChar.mem
  match after with
  | '>' :: rest => if name.isEmpty then none else some rest
  | _ => none

def plainChar (flags : Flags) (c : Char) : Pattern :=
  .set ⟨[(c, c)], false, flags.anyCase⟩

mutual
def alternatives : Nat → Flags → Nat → List Char → Option (Reading Pattern)
  | 0, _, _, _ => none
  | fuel + 1, flags, groups, s =>
    match sequence fuel flags groups false [] s with
    | none => none
    | some ((flags, p), groups, rest) =>
      match rest with
      | '|' :: rest =>
        match alternatives fuel flags groups rest with
        | some more => some { more with value := .alt p more.value }
        | none => none
      | _ => some ⟨p, groups, rest⟩

/-- Items up to a bar, a closing parenthesis or the end, with those before in reverse. A sign of
repetition is for the item before it, which must not end in such a sign. -/
def sequence : Nat → Flags → Nat → Bool → List Pattern → List Char →
    Option ((Flags × Pattern) × Nat × List Char)
  | 0, _, _, _, _, _ => none
  | fuel + 1, flags, groups, afterSign, past, s =>
    let item (p : Pattern) (groups : Nat) (rest : List Char) :=
      sequence fuel flags groups false (p :: past) rest
    match repetition? s with
    | some (low, high, rest) =>
      match past with
      | [] => none
      | p :: past =>
        if afterSign then none
        else match repeated? flags p low high rest with
          | some (p, rest) => sequence fuel flags groups true (p :: past) rest
          | none => none
    | none =>
    match s with
    | [] => some ((flags, .cat past.reverse), groups, [])
    | '|' :: _ | ')' :: _ => some ((flags, .cat past.reverse), groups, s)
    | '(' :: '?' :: 'P' :: '<' :: rest | '(' :: '?' :: '<' :: rest =>
      match groupName? rest with
      | none => none
      | some rest =>
        match alternatives fuel flags (groups + 1) rest with
        | some ⟨p, inner, ')' :: rest⟩ => item (.group (groups + 1) p) inner rest
        | _ => none
    | '(' :: '?' :: rest =>
      match readFlags true false flags rest with
      | none => none
      | some (inside, false, rest) => sequence fuel inside groups false past rest
      | some (inside, true, rest) =>
        match alternatives fuel inside groups rest with
        | some ⟨p, inner, ')' :: rest⟩ => item p inner rest
        | _ => none
    | '(' :: rest =>
      match alternatives fuel flags (groups + 1) rest with
      | some ⟨p, inner, ')' :: rest⟩ => item (.group (groups + 1) p) inner rest
      | _ => none
    | '[' :: rest =>
      match charClass? flags rest with
      | some (p, rest) => item p groups rest
      | none => none
    | '.' :: rest => item (.set (if flags.dotAll then .all else .notNewline)) groups rest
    | '^' :: rest => item (.edge (if flags.multiline then .lineStart else .textStart)) groups rest
    | '$' :: rest => item (.edge (if flags.multiline then .lineEnd else .textEnd)) groups rest
    | '\\' :: 'A' :: rest => item (.edge .textStart) groups rest
    | '\\' :: 'z' :: rest => item (.edge .textEnd) groups rest
    | '\\' :: 'b' :: rest => item (.edge .word) groups rest
    | '\\' :: 'B' :: rest => item (.edge .notWord) groups rest
    | '\\' :: 'Q' :: rest => quoted fuel flags groups past rest
    | '\\' :: c :: rest =>
      match classRanges? c with
      | some ranges => item (.set ⟨ranges, false, flags.anyCase⟩) groups rest
      | none =>
        match escapedChar? (c :: rest) with
        | some (x, rest) => item (plainChar flags x) groups rest
        | none => none
    | ['\\'] => none
    | c :: rest => item (plainChar flags c) groups rest

def quoted : Nat → Flags → Nat → List Pattern → List Char →
    Option ((Flags × Pattern) × Nat × List Char)
  | 0, _, _, _, _ => none
  | fuel + 1, flags, groups, past, s =>
    match s with
    | [] => some ((flags, .cat past.reverse), groups, [])
    | '\\' :: 'E' :: rest => sequence fuel flags groups false past rest
    | c :: rest => quoted fuel flags groups (plainChar flags c :: past) rest
end

end PluginAudit.Pattern.Reader

namespace PluginAudit.Pattern

def parse? (s : List Char) : Option Pattern :=
  match Reader.alternatives (2 * s.length + 2) {} 0 s with
  | some ⟨p, _, []⟩ => some p
  | _ => none

end PluginAudit.Pattern
