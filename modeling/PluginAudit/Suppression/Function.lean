import PluginAudit.Duration
import PluginAudit.Pattern.Reader
import PluginAudit.Suppression.Expr
import PluginAudit.Text.Blank

/-!
The operators and functions of the rule language on values. Each has no result for values it is not
made for, and none where a result would leave its range.
-/

namespace PluginAudit.Suppression

/-! ### Ranges -/

def intResult? (n : Int) : Option Datum := if Decimal.fitsInt n then some (.int n) else none

def uintResult? (n : Int) : Option Datum :=
  if 0 ≤ n ∧ n ≤ Datum.maxUint then some (.uint n.toNat) else none

def durationResult? (n : Int) : Option Datum :=
  if Decimal.fitsInt n then some (.duration n) else none

def firstSecond : Int := -62135596800

def lastSecond : Int := 253402300799

def timestampResult? (seconds : Int) (nanoseconds : Nat) : Option Datum :=
  if firstSecond ≤ seconds ∧ seconds ≤ lastSecond then some (.timestamp seconds nanoseconds) else
    none

def moved? (seconds : Int) (nanoseconds : Nat) (span : Int) : Option Datum :=
  let total := seconds * 1000000000 + nanoseconds + span
  timestampResult? (total.fdiv 1000000000) (total.fmod 1000000000).toNat

def doubleResult (f : Float → Float → Float) (x y : Double) : Datum :=
  .double (.ofFloat (f x.toFloat y.toFloat))

/-! ### Operators -/

def sum? : Datum → Datum → Option Datum
  | .int a, .int b => intResult? (a + b)
  | .uint a, .uint b => uintResult? (a + b)
  | .double x, .double y => some (doubleResult (· + ·) x y)
  | .text a, .text b => some (.text (a ++ b))
  | .bytes a, .bytes b => some (.bytes (a ++ b))
  | .list a, .list b => some (.list (a ++ b))
  | .duration a, .duration b => durationResult? (a + b)
  | .timestamp s n, .duration d | .duration d, .timestamp s n => moved? s n d
  | _, _ => none

def difference? : Datum → Datum → Option Datum
  | .int a, .int b => intResult? (a - b)
  | .uint a, .uint b => uintResult? (a - b)
  | .double x, .double y => some (doubleResult (· - ·) x y)
  | .duration a, .duration b => durationResult? (a - b)
  | .timestamp s n, .duration d => moved? s n (-d)
  | .timestamp s n, .timestamp s' n' => durationResult? ((s - s') * 1000000000 + n - n')
  | _, _ => none

def product? : Datum → Datum → Option Datum
  | .int a, .int b => intResult? (a * b)
  | .uint a, .uint b => uintResult? (a * b)
  | .double x, .double y => some (doubleResult (· * ·) x y)
  | _, _ => none

/-- The quotient of two values; whole ones are rounded towards zero. -/
def quotient? : Datum → Datum → Option Datum
  | .int a, .int b => if b = 0 then none else intResult? (a.tdiv b)
  | .uint a, .uint b => if b = 0 then none else some (.uint (a / b))
  | .double x, .double y => some (doubleResult (· / ·) x y)
  | _, _ => none

/-- The remainder of two values, with the sign of the first. -/
def remainder? : Datum → Datum → Option Datum
  | .int a, .int b =>
    if b = 0 ∨ (a = Decimal.minInt ∧ b = -1) then none else some (.int (a.tmod b))
  | .uint a, .uint b => if b = 0 then none else some (.uint (a % b))
  | _, _ => none

def negative? : Datum → Option Datum
  | .int n => intResult? (-n)
  | .double x => some (.double (.ofFloat (-x.toFloat)))
  | _ => none

def wholePart (x : Double) : Int :=
  let n := if 0 ≤ x.scale then x.significand * Nat.pow 2 x.scale.toNat
    else x.significand / Nat.pow 2 (-x.scale).toNat
  if x.isNegative then -n else n

def isWhole (x : Double) : Bool :=
  x.isFinite && (0 ≤ x.scale || x.significand % Nat.pow 2 (-x.scale).toNat == 0)

def place? : Datum → Option Int
  | .int n => some n
  | .uint n => some n
  | .double x => if isWhole x then some (wholePart x) else none
  | _ => none

def item? : Datum → Datum → Option Datum
  | .list items, i => (place? i).bind fun n => if n < 0 then none else items[n.toNat]?
  | .map entries, key => Datum.find? entries key
  | _, _ => none

def within? : Datum → Datum → Option Datum
  | a, .list items => some (.bool (items.any (a.same ·)))
  | a, .map entries => some (.bool (Datum.find? entries a).isSome)
  | _, _ => none

def ordered? (test : Ordering → Bool) (a b : Datum) : Option Datum :=
  (a.compare? b).map fun o => .bool (test o)

def Operator.result? : Operator → Datum → Datum → Option Datum
  | .eq, a, b => some (.bool (a.same b))
  | .ne, a, b => some (.bool (!a.same b))
  | .lt, a, b => ordered? (· == .lt) a b
  | .le, a, b => ordered? (· != .gt) a b
  | .gt, a, b => ordered? (· == .gt) a b
  | .ge, a, b => ordered? (· != .lt) a b
  | .add, a, b => sum? a b
  | .sub, a, b => difference? a b
  | .mul, a, b => product? a b
  | .div, a, b => quotient? a b
  | .mod, a, b => remainder? a b
  | .index, a, b => item? a b
  | .within, a, b => within? a b

/-! ### Conversions -/

def boolWord? : String → Option Bool
  | "1" | "t" | "T" | "true" | "TRUE" | "True" => some true
  | "0" | "f" | "F" | "false" | "FALSE" | "False" => some false
  | _ => none

def liesBetween (x : Double) (low high : Int) : Bool :=
  x.isFinite && (Double.ofInt low).toFloat < x.toFloat && x.toFloat < (Double.ofInt high).toFloat

def toInt? : Datum → Option Datum
  | .int n => some (.int n)
  | .uint n => intResult? n
  | .double x =>
    if liesBetween x Decimal.minInt Decimal.maxInt then some (.int (wholePart x)) else none
  | .text s => (Decimal.readInt? s.toList).map .int
  | .timestamp seconds _ => some (.int seconds)
  | .duration n => some (.int n)
  | _ => none

def toUint? : Datum → Option Datum
  | .uint n => some (.uint n)
  | .int n => uintResult? n
  | .double x =>
    if x.isZero || (!x.isNegative && liesBetween x 0 Datum.maxUint) then
      some (.uint (wholePart x).toNat) else none
  | .text s =>
    if s.isEmpty || !s.toList.all Char.isDigit then none
    else uintResult? (Decimal.natOfDigits s.toList)
  | _ => none

/-- The words for doubles that are not finite, in lower case and without sign. -/
def endlessWord? : String → Option Float
  | "inf" | "infinity" => some (1.0 / 0.0)
  | "nan" => some (0.0 / 0.0)
  | _ => none

def readDouble? (s : String) : Option Double :=
  match Decimal.readDouble? s.toList with
  | some x => some x
  | none =>
    let (negative, word) := match s.toList with
      | '-' :: rest => (true, rest)
      | '+' :: rest => (false, rest)
      | word => (false, word)
    (endlessWord? (String.ofList (word.map Char.toLower))).map fun x =>
      .ofFloat (if negative then -x else x)

def toDouble? : Datum → Option Datum
  | .double x => some (.double x)
  | .int n => some (.double (.ofInt n))
  | .uint n => some (.double (.ofInt n))
  | .text s => (readDouble? s).map .double
  | _ => none

def secondsText (n : Int) : String :=
  let seconds := Float.ofInt (n.tdiv 1000000000) + Float.ofInt (n.tmod 1000000000) / 1000000000.0
  let x := Double.ofFloat seconds
  (if x.isNegative then "-" else "") ++ Decimal.positional (Decimal.shortest x) ++ "s"

def toText? : Datum → Option Datum
  | .text s => some (.text s)
  | .bool b => some (.text (if b then "true" else "false"))
  | .bytes b =>
    if Text.validBytes b then some (.text (String.ofList (Text.decodeBytes b))) else none
  | .double x => some (.text (Decimal.write Decimal.plainStyle x))
  | .int n => some (.text (Decimal.intText n))
  | .uint n => some (.text (Decimal.natText n))
  | .timestamp s n => some (.text (Moment.fullText ⟨s, n, 0⟩))
  | .duration n => some (.text (secondsText n))
  | _ => none

def toTimestamp? : Datum → Option Datum
  | .timestamp s n => some (.timestamp s n)
  | .int n => timestampResult? n 0
  | .text s => (Moment.parse? s.toList).bind fun m => timestampResult? m.seconds m.nanoseconds
  | _ => none

def toDuration? : Datum → Option Datum
  | .duration n => some (.duration n)
  | .int n => some (.duration n)
  | .text s => (Duration.parse s).toOption.map .duration
  | _ => none

/-! ### Functions -/

def size? : Datum → Option Datum
  | .text s => some (.int s.length)
  | .bytes b => some (.int b.length)
  | .list items => some (.int items.length)
  | .map entries => some (.int entries.length)
  | _ => none

def matches? : Datum → Datum → Option Datum
  | .text s, .text pattern => (Pattern.parse? pattern.toList).map fun p => .bool (p.occursIn s)
  | _, _ => none

def function? : String → List Datum → Option Datum
  | "size", [a] => size? a
  | "matches", [a, b] => matches? a b
  | "type", [a] => some (.type a.typeOf)
  | "dyn", [a] => some a
  | "bool", [.bool b] => some (.bool b)
  | "bool", [.text s] => (boolWord? s).map .bool
  | "bytes", [.bytes b] => some (.bytes b)
  | "bytes", [.text s] => some (.bytes s.toUTF8.toList)
  | "double", [a] => toDouble? a
  | "duration", [a] => toDuration? a
  | "int", [a] => toInt? a
  | "string", [a] => toText? a
  | "timestamp", [a] => toTimestamp? a
  | "uint", [a] => toUint? a
  | _, _ => none

/-- The minutes of a zone given by hours and minutes or by one of the names for the zone without
offset. -/
def zone? (s : String) : Option Int :=
  if s = "" ∨ s = "UTC" then some 0
  else
    let (hours, rest) := s.toList.span (· != ':')
    match rest with
    | ':' :: minutes => do
      let h ← Decimal.readInt? hours
      let m ← Decimal.readInt? minutes
      return if hours.head? = some '-' then h * 60 - m else h * 60 + m
    | _ => none

/-- The part of a moment on a clock with an offset. -/
def momentPart? (name : String) (m : Moment) : Option Int :=
  let (date, seconds) := m.shown
  let days := date.toDays
  match name with
  | "getFullYear" => some date.year
  | "getMonth" => some (date.month - 1 : Nat)
  | "getDayOfYear" => some (days - Date.toDays ⟨date.year, 1, 1⟩)
  | "getDate" => some date.day
  | "getDayOfMonth" => some (date.day - 1 : Nat)
  | "getDayOfWeek" => some ((days + 4).fmod 7)
  | "getHours" => some (seconds / 3600 : Nat)
  | "getMinutes" => some (seconds / 60 % 60 : Nat)
  | "getSeconds" => some (seconds % 60 : Nat)
  | "getMilliseconds" => some (m.nanoseconds / 1000000 : Nat)
  | _ => none

def spanPart? (name : String) (n : Int) : Option Int :=
  match name with
  | "getHours" => some (n.tdiv 3600000000000)
  | "getMinutes" => some (n.tdiv 60000000000)
  | "getSeconds" => some (n.tdiv 1000000000)
  | "getMilliseconds" => some (n.tdiv 1000000)
  | _ => none

def method? : String → Datum → List Datum → Option Datum
  | "size", a, [] => size? a
  | "matches", a, [b] => matches? a b
  | "contains", .text a, [.text b] => some (.bool (Text.contains a b))
  | "startsWith", .text a, [.text b] => some (.bool (a.startsWith b))
  | "endsWith", .text a, [.text b] => some (.bool (a.endsWith b))
  | name, .timestamp s n, [] => (momentPart? name ⟨s, n, 0⟩).map .int
  | name, .timestamp s n, [.text zone] =>
    (zone? zone).bind fun offset => (momentPart? name ⟨s, n, offset⟩).map .int
  | name, .duration n, [] => (spanPart? name n).map .int
  | _, _, _ => none

end PluginAudit.Suppression
