import PluginAudit.Json.Basic
import PluginAudit.Text.Utf8

/-!
Reading JSON documents. The reader takes one value from the start of a text and gives back what
follows it. Escapes of unpaired surrogates read as replacement characters. Values may be nested to
any depth; a reader that gives up at some depth refuses more.
-/

namespace PluginAudit.Json

def isGap (c : Char) : Bool :=
  c == ' ' || c == '\t' || c == '\n' || c == '\r'

def skipGap (s : List Char) : List Char :=
  s.dropWhile isGap

def hexValue? (c : Char) : Option Nat :=
  if '0' ≤ c ∧ c ≤ '9' then some (c.toNat - 48)
  else if 'a' ≤ c ∧ c ≤ 'f' then some (c.toNat - 87)
  else if 'A' ≤ c ∧ c ≤ 'F' then some (c.toNat - 55)
  else none

def fourHex? : List Char → Option (Nat × List Char)
  | a :: b :: c :: d :: rest => do
    let a ← hexValue? a
    let b ← hexValue? b
    let c ← hexValue? c
    let d ← hexValue? d
    some (((a * 16 + b) * 16 + c) * 16 + d, rest)
  | _ => none

/-- The low surrogate that an escape at the start stands for. -/
def lowSurrogate? : List Char → Option (Nat × List Char)
  | '\\' :: 'u' :: rest =>
    match fourHex? rest with
    | some (n, after) => if 0xDC00 ≤ n ∧ n ≤ 0xDFFF then some (n, after) else none
    | none => none
  | _ => none

/-- The character of a four-digit escape, with its partner if it is half of a pair. -/
def escapedUnit (n : Nat) (rest : List Char) : Char × List Char :=
  if 0xD800 ≤ n ∧ n ≤ 0xDBFF then
    match lowSurrogate? rest with
    | some (low, after) => (Char.ofNat ((n - 0xD800) * 1024 + (low - 0xDC00) + 0x10000), after)
    | none => (Text.replacement, rest)
  else if 0xDC00 ≤ n ∧ n ≤ 0xDFFF then (Text.replacement, rest)
  else (Char.ofNat n, rest)

def escape? : List Char → Option (Char × List Char)
  | '"' :: rest => some ('"', rest)
  | '\\' :: rest => some ('\\', rest)
  | '/' :: rest => some ('/', rest)
  | 'b' :: rest => some (Char.ofNat 8, rest)
  | 'f' :: rest => some (Char.ofNat 12, rest)
  | 'n' :: rest => some ('\n', rest)
  | 'r' :: rest => some ('\r', rest)
  | 't' :: rest => some ('\t', rest)
  | 'u' :: rest => (fourHex? rest).map fun (n, after) => escapedUnit n after
  | _ => none

/-- The rest of a string after its opening quote, with the characters read so far in reverse. -/
def readString : Nat → List Char → List Char → Option (String × List Char)
  | 0, _, _ => none
  | _ + 1, _, [] => none
  | fuel + 1, past, c :: rest =>
    if c = '"' then some (String.ofList past.reverse, rest)
    else if c = '\\' then
      match escape? rest with
      | some (e, after) => readString fuel (e :: past) after
      | none => none
    else if c.toNat < 0x20 then none
    else readString fuel (c :: past) rest

def spanDigits (s : List Char) : List Char × List Char :=
  s.span Char.isDigit

/-- The whole part of a numeral: a zero, or digits that start with another one. -/
def wholePart? : List Char → Option (List Char × List Char)
  | '0' :: rest => some (['0'], rest)
  | s => match spanDigits s with
    | ([], _) => none
    | found => some found

def fractionPart? : List Char → Option (List Char × List Char)
  | '.' :: rest => match spanDigits rest with
    | ([], _) => none
    | (digits, after) => some ('.' :: digits, after)
  | s => some ([], s)

def exponentPart? : List Char → Option (List Char × List Char)
  | c :: rest =>
    if c = 'e' ∨ c = 'E' then
      let (sign, rest) := match rest with
        | '+' :: after => (['+'], after)
        | '-' :: after => (['-'], after)
        | after => ([], after)
      match spanDigits rest with
      | ([], _) => none
      | (digits, after) => some (c :: sign ++ digits, after)
    else some ([], c :: rest)
  | [] => some ([], [])

def readNumeral (s : List Char) : Option (String × List Char) := do
  let (sign, s) := match s with
    | '-' :: rest => (['-'], rest)
    | s => ([], s)
  let (whole, s) ← wholePart? s
  let (fraction, s) ← fractionPart? s
  let (exponent, s) ← exponentPart? s
  some (String.ofList (sign ++ whole ++ fraction ++ exponent), s)

def dropWord? (word s : List Char) : Option (List Char) :=
  if word.isPrefixOf s then some (s.drop word.length) else none

mutual
def readValue : Nat → List Char → Option (Json × List Char)
  | 0, _ => none
  | fuel + 1, s =>
    match skipGap s with
    | '\x7b' :: rest =>
      match skipGap rest with
      | '\x7d' :: after => some (.obj [], after)
      | _ => readMembers fuel [] rest
    | '[' :: rest =>
      match skipGap rest with
      | ']' :: after => some (.arr [], after)
      | _ => readItems fuel [] rest
    | '"' :: rest => (readString (rest.length + 1) [] rest).map fun (t, after) => (.str t, after)
    | 't' :: rest => (dropWord? ['r', 'u', 'e'] rest).map fun after => (.bool true, after)
    | 'f' :: rest => (dropWord? ['a', 'l', 's', 'e'] rest).map fun after => (.bool false, after)
    | 'n' :: rest => (dropWord? ['u', 'l', 'l'] rest).map fun after => (.null, after)
    | s => (readNumeral s).map fun (n, after) => (.num n, after)

/-- The items of an array up to its bracket, with those read so far in reverse. -/
def readItems : Nat → List Json → List Char → Option (Json × List Char)
  | 0, _, _ => none
  | fuel + 1, past, s =>
    match readValue fuel s with
    | none => none
    | some (value, rest) =>
      match skipGap rest with
      | ',' :: after => readItems fuel (value :: past) after
      | ']' :: after => some (.arr (value :: past).reverse, after)
      | _ => none

/-- The members of an object up to its brace, with those read so far in reverse. -/
def readMembers : Nat → List (String × Json) → List Char → Option (Json × List Char)
  | 0, _, _ => none
  | fuel + 1, past, s =>
    match skipGap s with
    | '"' :: rest =>
      match readString (rest.length + 1) [] rest with
      | none => none
      | some (name, rest) =>
        match skipGap rest with
        | ':' :: rest =>
          match readValue fuel rest with
          | none => none
          | some (value, rest) =>
            match skipGap rest with
            | ',' :: after => readMembers fuel ((name, value) :: past) after
            | '\x7d' :: after => some (.obj ((name, value) :: past).reverse, after)
            | _ => none
        | _ => none
    | _ => none
end

def readFirst (s : List Char) : Option (Json × List Char) :=
  readValue (s.length + 1) s

/-- The value that a text consists of, white space around it apart. -/
def parse? (s : List Char) : Option Json :=
  match readFirst s with
  | some (value, rest) => if (skipGap rest).isEmpty then some value else none
  | none => none

end PluginAudit.Json
