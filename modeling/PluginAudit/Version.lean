import PluginAudit.Decimal.Numeral
import PluginAudit.Decimal.Shortest
import PluginAudit.Text.Blank
import PluginAudit.Text.Quoted

/-!
Versions of PHP and WordPress. A version is read from the leading digits and dots of a text; missing
parts are zero and parts after the third are ignored. Every text has a place in the order of
versions: those that are no version come first, in the order of texts.
-/

namespace PluginAudit

structure Version where
  major : Nat
  minor : Nat
  patch : Nat
deriving DecidableEq, Repr

namespace Version

inductive Error where
  | invalid (value : String)
deriving DecidableEq

def Error.message : Error → String
  | .invalid value => "invalid version: " ++ Text.quote value

/-- The digits and dots that a version is read from. -/
def numericPart (value : String) : List Char :=
  let trimmed := match Text.trimChars value.toList with
    | 'v' :: rest => rest
    | chars => chars
  Text.trimBy (· == '.') (trimmed.takeWhile fun c => c == '.' || c.isDigit)

/-- One part of a version: digits that fit sixty-four bits. -/
def part? (digits : List Char) : Option Nat :=
  if digits.isEmpty then none
  else
    let n := Decimal.natOfDigits digits
    if (n : Int) ≤ Decimal.maxInt then some n else none

def parse? (value : String) : Option Version :=
  match numericPart value with
  | [] => none
  | numeric =>
    match (Text.splitOnChar '.' numeric).take 3 with
    | [a] => do
      let a ← part? a
      some ⟨a, 0, 0⟩
    | [a, b] => do
      let a ← part? a
      let b ← part? b
      some ⟨a, b, 0⟩
    | [a, b, c] => do
      let a ← part? a
      let b ← part? b
      let c ← part? c
      some ⟨a, b, c⟩
    | _ => none

def normalText (v : Version) : String :=
  Decimal.natText v.major ++ "." ++ Decimal.natText v.minor ++ "." ++ Decimal.natText v.patch

def normalize (value : String) : Except Error String :=
  match parse? value with
  | some v => .ok v.normalText
  | none => .error (.invalid value)

def order (a b : Version) : Ordering :=
  (compare a.major b.major).then ((compare a.minor b.minor).then (compare a.patch b.patch))

def compareTexts (a b : String) : Ordering :=
  match parse? a, parse? b with
  | none, none => compare a b
  | none, some _ => .lt
  | some _, none => .gt
  | some v, some w => v.order w

def atLeast (target minimum : String) : Bool :=
  compareTexts target minimum != .lt

def below (target minimum : String) : Bool :=
  compareTexts target minimum == .lt

/-- Goes through versions, with the normal forms seen so far. -/
def normalizeFrom (seen : List String) : List String → Except Error (List String)
  | [] => .ok []
  | value :: values =>
    if Text.isBlank value then normalizeFrom seen values
    else match normalize value with
      | .error e => .error e
      | .ok normal =>
        if seen.contains normal then normalizeFrom seen values
        else match normalizeFrom (normal :: seen) values with
          | .error e => .error e
          | .ok rest => .ok (Text.trim value :: rest)

/-- The versions of a list, trimmed, the first of each normal form; blank entries are left out. -/
def normalizeList (values : List String) : Except Error (List String) :=
  normalizeFrom [] values

end Version

end PluginAudit
