import PluginAudit.Decimal.Double

/-!
Reading numerals: whole numbers of sixty-four bits and decimals as doubles.
-/

namespace PluginAudit.Decimal

def natOfDigits (digits : List Char) : Nat :=
  digits.foldl (fun n c => n * 10 + (c.toNat - 48)) 0

def minInt : Int := -9223372036854775808

def maxInt : Int := 9223372036854775807

def fitsInt (n : Int) : Bool := minInt ≤ n && n ≤ maxInt

def wrapInt (n : Int) : Int := n.bmod 18446744073709551616

/-- Digits with an optional sign as a whole number of sixty-four bits. -/
def readInt? (s : List Char) : Option Int :=
  let (negative, digits) := match s with
    | '-' :: rest => (true, rest)
    | '+' :: rest => (false, rest)
    | s => (false, s)
  if digits.isEmpty || !digits.all Char.isDigit then none
  else
    let n : Int := natOfDigits digits
    let n := if negative then -n else n
    if fitsInt n then some n else none

def clampExponent (e : Int) : Int := max (-5000) (min 5000 e)

def nearest (mantissa : Nat) (exponent : Int) : Float :=
  if mantissa = 0 then 0
  else if exponent < 0 then Float.ofScientific mantissa true exponent.natAbs
  else Float.ofScientific mantissa false exponent.natAbs

def signOf : List Char → Bool × List Char
  | '-' :: rest => (true, rest)
  | '+' :: rest => (false, rest)
  | s => (false, s)

def exponent? (low high : Char) (s : List Char) : Option Int :=
  match s with
  | [] => some 0
  | c :: rest =>
    let (negative, digits) := signOf rest
    if (c ≠ low ∧ c ≠ high) ∨ digits.isEmpty ∨ !digits.all Char.isDigit then none
    else some (if negative then -(natOfDigits digits : Int) else natOfDigits digits)

/-- The sign, the digits and the exponent of a decimal with an optional fraction and an optional
exponent. -/
def decimalParts? (s : List Char) : Option (Bool × Nat × Int) :=
  let (negative, s) := signOf s
  let (whole, s) := s.span Char.isDigit
  let (fraction, s) := match s with
    | '.' :: rest => rest.span Char.isDigit
    | s => ([], s)
  if whole.isEmpty && fraction.isEmpty then none
  else (exponent? 'e' 'E' s).map fun e =>
    (negative, natOfDigits (whole ++ fraction), clampExponent (e - fraction.length))

/-- A decimal as the nearest double. A value beyond the largest double has none. -/
def readDouble? (s : List Char) : Option Double :=
  (decimalParts? s).bind fun (negative, mantissa, exponent) =>
    let x := nearest mantissa exponent
    if x.isFinite then some (.ofFloat (if negative then -x else x)) else none

end PluginAudit.Decimal
