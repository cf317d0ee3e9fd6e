import PluginAudit.Decimal.Numeral
import PluginAudit.Json.Reader

/-!
The tokens of rules. Of all tokens that could start at a place the longest counts. Blanks and
comments between tokens are skipped.
-/

namespace PluginAudit.Suppression

inductive Token where
  | name (s : String)
  | mark (s : String)
  /-- A whole number with its digits as written, hexadecimal or not, and whether it has no sign. -/
  | whole (hex : Bool) (digits : List Char) (unsigned : Bool)
  | decimal (text : List Char)
  | text (s : String)
  | bytes (bytes : List UInt8)
deriving DecidableEq

namespace Token

def isNameStart (c : Char) : Bool := c.isAlpha || c == '_'

def isNameChar (c : Char) : Bool := c.isAlphanum || c == '_'

def isGap (c : Char) : Bool := c == ' ' || c == '\t' || c == '\r' || c == '\n' || c == '\x0c'

def isHex (c : Char) : Bool := (Json.hexValue? c).isSome

def hexNumber (digits : List Char) : Nat :=
  digits.foldl (fun n c => n * 16 + (Json.hexValue? c).getD 0) 0

def longMarks : List (List Char) :=
  [['=', '='], ['!', '='], ['<', '='], ['>', '='], ['&', '&'], ['|', '|']]

def shortMarks : List Char := "<>[]\x7b\x7d().,-!?:+*/%".toList

/-! ### Quoted text -/

/-- A piece of quoted text: a character, or a byte given by its number. -/
inductive Piece where
  | char (c : Char)
  | byte (b : UInt8)
deriving DecidableEq

def charBytes (c : Char) : List UInt8 := (String.singleton c).toUTF8.toList

def Piece.bytes : Piece → List UInt8
  | .char c => charBytes c
  | .byte b => [b]

def Piece.asChar : Piece → Char
  | .char c => c
  | .byte b => Char.ofNat b.toNat

/-- The characters that stand for another one after a backslash. -/
def plainEscape? : Char → Option Char
  | 'a' => some (Char.ofNat 7)
  | 'b' => some (Char.ofNat 8)
  | 'f' => some (Char.ofNat 12)
  | 'n' => some '\n'
  | 'r' => some '\r'
  | 't' => some '\t'
  | 'v' => some (Char.ofNat 11)
  | '"' => some '"'
  | '\'' => some '\''
  | '\\' => some '\\'
  | '?' => some '?'
  | c => if c.toNat = 96 then some c else none

def numbered? (n : Nat) : Option Char :=
  if n.isValidChar then some (Char.ofNat n) else none

/-- The piece of an escape, after its backslash. Characters by number stand in texts only. -/
def escape? (inBytes : Bool) : List Char → Option (Piece × List Char)
  | [] => none
  | c :: rest =>
    if c = 'x' ∨ c = 'X' then
      let digits := rest.take 2
      if digits.length = 2 ∧ digits.all isHex then
        some (.byte (UInt8.ofNat (hexNumber digits)), rest.drop 2)
      else none
    else if c = 'u' ∨ c = 'U' then
      let width := if c = 'u' then 4 else 8
      let digits := rest.take width
      if inBytes ∨ digits.length ≠ width ∨ ¬ digits.all isHex then none
      else (numbered? (hexNumber digits)).map fun x => (.char x, rest.drop width)
    else if '0' ≤ c ∧ c ≤ '3' then
      match rest with
      | d :: e :: after =>
        if '0' ≤ d ∧ d ≤ '7' ∧ '0' ≤ e ∧ e ≤ '7' then
          some (.byte (UInt8.ofNat ((c.toNat - 48) * 64 + (d.toNat - 48) * 8 + (e.toNat - 48))),
            after)
        else none
      | _ => none
    else (plainEscape? c).map fun x => (.char x, rest)

/-- The pieces up to a closing quote. Texts in single quotes do not go beyond a line. -/
def pieces (raw inBytes long : Bool) (quote : Char) :
    Nat → List Piece → List Char → Option (List Piece × List Char)
  | 0, _, _ => none
  | fuel + 1, past, s =>
    match s with
    | [] => none
    | c :: rest =>
      if long ∧ c = quote ∧ rest.take 2 = [quote, quote] then some (past.reverse, rest.drop 2)
      else if !long ∧ c = quote then some (past.reverse, rest)
      else if !long ∧ (c = '\n' ∨ c = '\r') then none
      else if !raw ∧ c = '\\' then
        match escape? inBytes rest with
        | some (piece, rest) => pieces raw inBytes long quote fuel (piece :: past) rest
        | none => none
      else if c = '\r' then
        let rest := match rest with
          | '\n' :: after => after
          | rest => rest
        pieces raw inBytes long quote fuel (.char '\n' :: past) rest
      else pieces raw inBytes long quote fuel (.char c :: past) rest

/-- A quoted text from its quote on. Three quotes open a long text if it is closed. -/
def quoted? (raw inBytes : Bool) : List Char → Option (Token × List Char)
  | [] => none
  | q :: rest =>
    if q ≠ '"' ∧ q ≠ '\'' then none
    else
      let finish (result : List Piece × List Char) : Token × List Char :=
        (if inBytes then .bytes (result.1.flatMap Piece.bytes)
         else .text (String.ofList (result.1.map Piece.asChar)), result.2)
      let short := (pieces raw inBytes false q (rest.length + 1) [] rest).map finish
      if rest.take 2 = [q, q] then
        ((pieces raw inBytes true q (rest.length + 1) [] (rest.drop 2)).map finish).or short
      else short

/-- A text with marks for raw text and bytes before its quote. -/
def text? : List Char → Option (Token × List Char)
  | c :: d :: rest =>
    let isRaw (c : Char) := c = 'r' ∨ c = 'R'
    if c = 'b' ∨ c = 'B' then
      if isRaw d then quoted? true true rest else quoted? false true (d :: rest)
    else if isRaw c then quoted? true false (d :: rest)
    else quoted? false false (c :: d :: rest)
  | _ => none

/-! ### Numbers -/

/-- The exponent of a decimal at the start of a text, with what follows it. -/
def exponent? : List Char → Option (List Char × List Char)
  | [] => none
  | c :: rest =>
    if c = 'e' ∨ c = 'E' then
      let (sign, rest) := match rest with
        | '+' :: after => (['+'], after)
        | '-' :: after => (['-'], after)
        | rest => ([], rest)
      let (digits, rest) := rest.span Char.isDigit
      if digits.isEmpty then none else some (c :: sign ++ digits, rest)
    else none

/-- A decimal at the start of a text: it has a fraction or an exponent. -/
def decimal? (s : List Char) : Option (Token × List Char) :=
  let (lead, rest) := s.span Char.isDigit
  let fraction := match rest with
    | '.' :: after =>
      let (digits, after) := after.span Char.isDigit
      if digits.isEmpty then none else some ('.' :: digits, after)
    | _ => none
  match fraction with
  | some (fraction, rest) =>
    match exponent? rest with
    | some (e, rest) => some (.decimal (lead ++ fraction ++ e), rest)
    | none => some (.decimal (lead ++ fraction), rest)
  | none =>
    if lead.isEmpty then none
    else (exponent? rest).map fun (e, rest) => (.decimal (lead ++ e), rest)

def unsignedMark : List Char → Bool × List Char
  | 'u' :: rest | 'U' :: rest => (true, rest)
  | rest => (false, rest)

def whole? (s : List Char) : Option (Token × List Char) :=
  let digits (s : List Char) :=
    let (found, rest) := s.span Char.isDigit
    if found.isEmpty then none
    else
      let (unsigned, rest) := unsignedMark rest
      some (Token.whole false found unsigned, rest)
  match s with
  | '0' :: 'x' :: rest =>
    let (found, rest) := rest.span isHex
    if found.isEmpty then digits s
    else
      let (unsigned, rest) := unsignedMark rest
      some (.whole true found unsigned, rest)
  | s => digits s

/-! ### All tokens -/

def next? (s : List Char) : Option (Token × List Char) :=
  match text? s with
  | some found => some found
  | none =>
    match decimal? s with
    | some found => some found
    | none =>
      match whole? s with
      | some found => some found
      | none =>
        match s with
        | [] => none
        | c :: rest =>
          if isNameStart c then
            let (more, rest) := rest.span isNameChar
            some (.name (String.ofList (c :: more)), rest)
          else if longMarks.contains (s.take 2) then
            some (.mark (String.ofList (s.take 2)), s.drop 2)
          else if shortMarks.contains c then some (.mark (String.singleton c), rest)
          else none

def scanFrom : Nat → List Char → Option (List Token)
  | 0, _ => none
  | fuel + 1, s =>
    match s with
    | [] => some []
    | '/' :: '/' :: rest => scanFrom fuel (rest.dropWhile (· != '\n'))
    | c :: rest =>
      if isGap c then scanFrom fuel rest
      else
        match next? s with
        | some (token, rest) => (scanFrom fuel rest).map (token :: ·)
        | none => none

def scan? (s : List Char) : Option (List Token) := scanFrom (s.length + 1) s

end Token

end PluginAudit.Suppression
