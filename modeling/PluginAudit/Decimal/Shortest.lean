import PluginAudit.Decimal.Double

/-!
The shortest decimal that reads back as a given double, and the forms in which it is written. Of
the decimals with the fewest digits the nearest one is taken.
-/

namespace PluginAudit.Decimal

/-- The decimal `0.d₁d₂… * 10 ^ point` with digits `d₁d₂…`. -/
structure Digits where
  digits : List Nat
  point : Int
deriving DecidableEq, Repr

/-- The decimal digits of a number, highest first; none for zero. -/
def digitsOf (n : Nat) : List Nat :=
  go (n.log2 + 1) n []
where
  /-- Puts at most `fuel` digits of `n` before `tail`. -/
  go : Nat → Nat → List Nat → List Nat
    | 0, _, tail => tail
    | fuel + 1, n, tail => if n = 0 then tail else go fuel (n / 10) (n % 10 :: tail)

def trimZeros (digits : List Nat) : List Nat :=
  (digits.reverse.dropWhile (· == 0)).reverse

/-- A positive fraction with the interval of fractions that round to it, over a common
denominator. -/
structure Rounding where
  value : Nat
  low : Nat
  high : Nat
  denominator : Nat
  /-- Whether the ends belong to the interval. -/
  closed : Bool

/-- The interval of reals that round to the double with significand `m` and scale `q`. The lower
neighbour of a power of two is nearer than the upper one. -/
def Rounding.of (m : Nat) (q : Int) : Rounding :=
  let below := if m = Nat.pow 2 52 ∧ q ≠ -1074 then 1 else 2
  let up := if 0 ≤ q - 2 then Nat.pow 2 (q - 2).toNat else 1
  let down := if 0 ≤ q - 2 then 1 else Nat.pow 2 (2 - q).toNat
  { value := 4 * m * up, low := (4 * m - below) * up, high := (4 * m + 2) * up,
    denominator := down, closed := m % 2 = 0 }

def Rounding.contains (r : Rounding) (num den : Nat) : Bool :=
  let x := num * r.denominator
  if r.closed then r.low * den ≤ x && x ≤ r.high * den
  else r.low * den < x && x < r.high * den

/-- The least `k` with `value < 10 ^ k`, found from an estimate. -/
def Rounding.magnitude (r : Rounding) : Int :=
  let estimate : Int := ((Int.ofNat r.value.log2 - Int.ofNat r.denominator.log2) * 30103) / 100000
  climb 4 (estimate - 1)
where
  below (k : Int) : Bool :=
    if 0 ≤ k then r.value < Nat.pow 10 k.toNat * r.denominator
    else r.value * Nat.pow 10 (-k).toNat < r.denominator
  /-- The first of `k`, `k + 1`, … whose power of ten exceeds the value. -/
  climb : Nat → Int → Int
    | 0, k => k
    | fuel + 1, k => if below k then k else climb fuel (k + 1)

/-- The multiple of `10 ^ (magnitude - n)` nearest to the value among its two neighbours on that
grid that round to it. -/
def Rounding.onGrid (r : Rounding) (magnitude : Int) (n : Nat) : Option Nat :=
  let e := magnitude - Int.ofNat n
  let unit := if 0 ≤ e then Nat.pow 10 e.toNat else 1
  let den := if 0 ≤ e then 1 else Nat.pow 10 (-e).toNat
  let d := r.value * den / (r.denominator * unit)
  let lowHit := r.contains (d * unit) den
  let highHit := r.contains ((d + 1) * unit) den
  -- twice the value against the midpoint of the two neighbours
  let twice := 2 * r.value * den
  let middle := (2 * d + 1) * r.denominator * unit
  match lowHit, highHit with
  | true, true =>
    if twice < middle then some d
    else if middle < twice then some (d + 1)
    else if d % 2 = 0 then some d else some (d + 1)
  | true, false => some d
  | false, true => some (d + 1)
  | false, false => none

/-- The shortest digits of the double `m * 2 ^ q`, which is not zero. -/
def Rounding.shortest (r : Rounding) : Digits :=
  let k := r.magnitude
  let rec search : Nat → Nat → Digits
    | 0, n => ⟨digitsOf ((r.onGrid k n).getD 0), k⟩
    | fuel + 1, n =>
      match r.onGrid k n with
      | some d =>
        let digits := digitsOf d
        ⟨trimZeros digits, k + (Int.ofNat digits.length - Int.ofNat n)⟩
      | none => search fuel (n + 1)
  search 17 1

def shortest (x : Double) : Digits :=
  if x.isZero then ⟨[], 0⟩ else (Rounding.of x.significand x.scale).shortest

/-! ### Written forms -/

def digitChar (d : Nat) : Char := Char.ofNat (d + 48)

def natText (n : Nat) : String :=
  if n = 0 then "0" else String.ofList ((digitsOf n).map digitChar)

def intText (n : Int) : String :=
  if n < 0 then "-" ++ natText n.natAbs else natText n.natAbs

def positional (d : Digits) : String :=
  let chars := d.digits.map digitChar
  if chars.isEmpty then "0"
  else if d.point ≤ 0 then
    "0." ++ String.ofList (List.replicate (-d.point).toNat '0' ++ chars)
  else
    let p := d.point.toNat
    if chars.length ≤ p then String.ofList (chars ++ List.replicate (p - chars.length) '0')
    else String.ofList (chars.take p ++ ['.'] ++ chars.drop p)

/-- Scientific form with an exponent of at least `width` digits. -/
def scientific (width : Nat) (d : Digits) : String :=
  let chars := d.digits.map digitChar
  let e := if chars.isEmpty then 0 else d.point - 1
  let mantissa := match chars with
    | [] => "0"
    | [c] => String.ofList [c]
    | c :: rest => String.ofList (c :: '.' :: rest)
  let exponent := (natText e.natAbs).toList
  let padding := List.replicate (width - exponent.length) '0'
  mantissa ++ "e" ++ (if e < 0 then "-" else "+") ++ String.ofList (padding ++ exponent)

/-- Where scientific form takes over: below `10 ^ low` and from `10 ^ high` on. -/
structure Style where
  low : Int
  high : Int
  exponentWidth : Nat

def write (style : Style) (x : Double) : String :=
  if x.biasedExponent = 0x7FF then
    if x.fraction ≠ 0 then "NaN" else if x.isNegative then "-Inf" else "+Inf"
  else
    let d := shortest x
    let e := d.point - 1
    let body :=
      if d.digits.isEmpty then "0"
      else if e < style.low || style.high ≤ e then scientific style.exponentWidth d
      else positional d
    if x.isNegative then "-" ++ body else body

def plainStyle : Style := ⟨-4, 6, 2⟩

end PluginAudit.Decimal
