import PluginAudit.Decimal.Radix
import PluginAudit.Text.Letter

/-!
Numbers as they are typed: decimals, numbers to the base sixteen with an exponent of two, and the
words for what is not finite. Single underscores may stand between digits.
-/

namespace PluginAudit.Decimal

inductive Fault where
  | malformed
  | outOfRange
deriving DecidableEq

def Fault.message : Fault → String
  | .malformed => "invalid syntax"
  | .outOfRange => "value out of range"

def readWhole (s : List Char) : Except Fault Int :=
  match markedInt? s with
  | none => .error .malformed
  | some n => if fitsInt n then .ok n else .error .outOfRange

inductive Before where
  | start
  | digit
  | underscore
  | other
deriving DecidableEq

/-- Whether each underscore follows a digit and is followed by one. -/
def separates (isDigit : Char → Bool) : Before → List Char → Bool
  | before, [] => before != .underscore
  | before, c :: rest =>
    if isDigit c then separates isDigit .digit rest
    else if c = '_' then before == .digit && separates isDigit .underscore rest
    else before != .underscore && separates isDigit .other rest

def afterHexMark? : List Char → Option (List Char)
  | '0' :: c :: d :: rest => if c = 'x' ∨ c = 'X' then some (d :: rest) else none
  | _ => none

def isHexDigit (c : Char) : Bool := (digitIn? 16 c).isSome

def underscoresStand (s : List Char) : Bool :=
  match afterHexMark? s with
  | some rest => separates isHexDigit .digit rest
  | none => separates Char.isDigit .start s

/-- A number to the base sixteen; its exponent, which it must have, is one of two. -/
def readHex? (s : List Char) : Option Float :=
  let (whole, s) := s.span isHexDigit
  let (fraction, s) := match s with
    | '.' :: rest => rest.span isHexDigit
    | s => ([], s)
  if s.isEmpty then none
  else do
    let mantissa ← natIn? 16 (whole ++ fraction)
    let e ← exponent? 'p' 'P' s
    return (Float.ofNat mantissa).scaleB (clampExponent e - 4 * fraction.length)

def readWord? (s : List Char) : Option Float :=
  let word := Text.lower (String.ofList s)
  if word = "inf" ∨ word = "infinity" ∨ word = "+inf" ∨ word = "+infinity" then some (1.0 / 0.0)
  else if word = "-inf" ∨ word = "-infinity" then some (-1.0 / 0.0)
  else if word = "nan" then some (0.0 / 0.0)
  else none

/-- The size of a finite number without sign, infinite if it is beyond the largest one. -/
def readSize? (s : List Char) : Option Float :=
  if !underscoresStand s then none
  else
    let plain := s.filter (· != '_')
    match afterHexMark? plain with
    | some rest => readHex? rest
    | none => if plain.head?.any fun c => c == '-' || c == '+' then none
      else (decimalParts? plain).map fun (_, mantissa, exponent) => nearest mantissa exponent

def readReal (s : List Char) : Except Fault Double :=
  match readWord? s with
  | some x => .ok (.ofFloat x)
  | none =>
    let (negative, rest) := signOf s
    match readSize? rest with
    | none => .error .malformed
    | some x =>
      if x.isFinite then .ok (.ofFloat (if negative then -x else x)) else .error .outOfRange

end PluginAudit.Decimal
