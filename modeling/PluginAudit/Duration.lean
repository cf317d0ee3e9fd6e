import PluginAudit.Decimal.Numeral
import PluginAudit.Decimal.Shortest
import PluginAudit.Text.Quoted

/-!
Spans of time in nanoseconds, written as numbers with units such as `1m30s`.
-/

namespace PluginAudit.Duration

def unit? : List Char → Option Nat
  | ['n', 's'] => some 1
  | ['u', 's'] => some 1000
  | ['m', 's'] => some 1000000
  | ['s'] => some 1000000000
  | ['m'] => some 60000000000
  | ['h'] => some 3600000000000
  | [c, 's'] => if c.toNat = 0xB5 ∨ c.toNat = 0x3BC then some 1000 else none
  | _ => none

def bound : Nat := 9223372036854775808

/-- The digits of a fraction that count, as a number and its power of ten. Digits after the number
has become too large do not count. -/
def fraction : Nat → Nat → List Char → Nat × Nat
  | n, scale, [] => (n, scale)
  | n, scale, c :: rest =>
    if (bound - 1) / 10 < n then (n, scale)
    else
      let more := n * 10 + (c.toNat - 48)
      if bound < more then (n, scale) else fraction more (scale * 10) rest

def partOf (n scale unit : Nat) : Nat :=
  if n = 0 then 0
  else (Float.ofNat n * (Float.ofNat unit / Float.ofNat scale)).toUInt64.toNat

inductive Error where
  | malformed (text : String)
  | missingUnit (text : String)
  | unknownUnit (unit text : String)
deriving DecidableEq

def hexByte (b : UInt8) : List Char :=
  ['\\', 'x', Text.hexDigit (b.toNat / 16), Text.hexDigit (b.toNat % 16)]

/-- A text in quotes; characters beyond those of a keyboard are shown by their bytes. -/
def quoted (s : String) : String :=
  let shown (c : Char) : List Char :=
    if c.toNat ≥ 128 ∨ c.toNat < 32 then (String.singleton c).toUTF8.toList.flatMap hexByte
    else if c = '"' ∨ c = '\\' then ['\\', c]
    else [c]
  "\"" ++ String.ofList (s.toList.flatMap shown) ++ "\""

def Error.message : Error → String
  | .malformed text => "time: invalid duration " ++ quoted text
  | .missingUnit text => "time: missing unit in duration " ++ quoted text
  | .unknownUnit unit text => "time: unknown unit " ++ quoted unit ++ " in duration " ++ quoted text

/-- Adds the numbers with units in a part of a text to a sum. -/
def sum (text : String) : Nat → Nat → List Char → Except Error Nat
  | 0, _, _ => .error (.malformed text)
  | fuel + 1, total, s =>
    if s.isEmpty then .ok total
    else
      let (whole, rest) := s.span Char.isDigit
      let (digits, rest) := match rest with
        | '.' :: after => after.span Char.isDigit
        | rest => ([], rest)
      if (whole.isEmpty && digits.isEmpty) || bound < Decimal.natOfDigits whole then
        .error (.malformed text)
      else
        let (name, rest) := rest.span fun c => c != '.' && !c.isDigit
        match unit? name with
        | none =>
          if name.isEmpty then .error (.missingUnit text)
          else .error (.unknownUnit (String.ofList name) text)
        | some unit =>
          let n := Decimal.natOfDigits whole
          if bound / unit < n then .error (.malformed text)
          else
            let (f, scale) := fraction 0 1 digits
            let v := n * unit + partOf f scale unit
            if bound < v || bound < total + v then .error (.malformed text)
            else sum text fuel (total + v) rest

def parse (text : String) : Except Error Int :=
  let (negative, s) := match text.toList with
    | '-' :: rest => (true, rest)
    | '+' :: rest => (false, rest)
    | s => (false, s)
  if s = ['0'] then .ok 0
  else if s.isEmpty then .error (.malformed text)
  else match sum text (s.length + 1) 0 s with
    | .error e => .error e
    | .ok n =>
      if negative then .ok (-n)
      else if bound - 1 < n then .error (.malformed text)
      else .ok n

/-- The last digits of a number after a point, without zeros at the end. -/
def fractionText (n places : Nat) : String :=
  let digits := (Decimal.natText n).toList
  let padded := List.replicate (places - digits.length) '0' ++ digits
  let kept := (padded.reverse.dropWhile (· == '0')).reverse
  if kept.isEmpty then "" else "." ++ String.ofList kept

def inUnit (n places : Nat) (unit : String) : String :=
  Decimal.natText (n / Nat.pow 10 places) ++ fractionText (n % Nat.pow 10 places) places ++ unit

def magnitudeText (n : Nat) : String :=
  if n = 0 then "0s"
  else if n < 1000 then inUnit n 0 "ns"
  else if n < 1000000 then inUnit n 3 "µs"
  else if n < 1000000000 then inUnit n 6 "ms"
  else
    let seconds := n / 1000000000
    let last := inUnit (n % 60000000000) 9 "s"
    if seconds < 60 then last
    else if seconds < 3600 then Decimal.natText (seconds / 60) ++ "m" ++ last
    else
      Decimal.natText (seconds / 3600) ++ "h" ++ Decimal.natText (seconds / 60 % 60) ++ "m" ++ last

def text (d : Int) : String :=
  if d < 0 then "-" ++ magnitudeText d.natAbs else magnitudeText d.natAbs

end PluginAudit.Duration
