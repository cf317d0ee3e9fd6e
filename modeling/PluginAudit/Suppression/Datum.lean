import PluginAudit.Moment
import PluginAudit.Value

/-!
The values that rules compute with. Whole numbers come with and without sign, and numbers of
different types are equal, and ordered, by value. A map keeps its entries in the order they were
given, each key once.
-/

namespace PluginAudit.Suppression

inductive BaseType where
  | null | bool | int | uint | double | text | bytes | list | map | type | timestamp | duration
deriving DecidableEq, Repr

inductive Datum where
  | null
  | bool (b : Bool)
  | int (n : Int)
  | uint (n : Nat)
  | double (x : Double)
  | text (s : String)
  | bytes (bytes : List UInt8)
  | list (items : List Datum)
  | map (entries : List (Datum × Datum))
  | type (t : BaseType)
  /-- Seconds since the start of 1970 and nanoseconds. -/
  | timestamp (seconds : Int) (nanoseconds : Nat)
  | duration (nanoseconds : Int)

namespace Datum

instance : Inhabited Datum := ⟨.null⟩

def typeOf : Datum → BaseType
  | .null => .null
  | .bool _ => .bool
  | .int _ => .int
  | .uint _ => .uint
  | .double _ => .double
  | .text _ => .text
  | .bytes _ => .bytes
  | .list _ => .list
  | .map _ => .map
  | .type _ => .type
  | .timestamp _ _ => .timestamp
  | .duration _ => .duration

mutual
def ofValue : Value → Datum
  | .null => .null
  | .bool b => .bool b
  | .number x => .double x
  | .text s => .text s
  | .list items => .list (ofValues items)
  | .record fields => .map (ofFields fields)

def ofValues : List Value → List Datum
  | [] => []
  | v :: rest => ofValue v :: ofValues rest

def ofFields : List (String × Value) → List (Datum × Datum)
  | [] => []
  | field :: rest => ofField field :: ofFields rest

def ofField : String × Value → Datum × Datum
  | (name, v) => (.text name, ofValue v)
end

/-! ### Numbers -/

def compareDoubles (x y : Float) : Option Ordering :=
  if x.isNaN || y.isNaN then none
  else some (if x < y then .lt else if x == y then .eq else .gt)

/-- The order of a double and a whole number of sixty-four bits between two bounds. The number is
rounded to a double unless the double lies outside the bounds. -/
def compareDoubleWhole (x : Double) (n low high : Int) : Option Ordering :=
  let f := x.toFloat
  if f.isNaN then none
  else if f < (Double.ofInt low).toFloat then some .lt
  else if f > (Double.ofInt high).toFloat then some .gt
  else compareDoubles f (Double.ofInt n).toFloat

def maxUint : Nat := 18446744073709551615

def compareNumbers : Datum → Datum → Option Ordering
  | .int a, .int b => some (compare a b)
  | .int a, .uint b => some (compare a b)
  | .uint a, .int b => some (compare (a : Int) b)
  | .uint a, .uint b => some (compare a b)
  | .double x, .double y => compareDoubles x.toFloat y.toFloat
  | .double x, .int n => compareDoubleWhole x n Decimal.minInt Decimal.maxInt
  | .double x, .uint n => compareDoubleWhole x n 0 maxUint
  | .int n, .double x => (compareDoubleWhole x n Decimal.minInt Decimal.maxInt).map Ordering.swap
  | .uint n, .double x => (compareDoubleWhole x n 0 maxUint).map Ordering.swap
  | _, _ => none

/-! ### Order and equality -/

def compare? : Datum → Datum → Option Ordering
  | .bool a, .bool b => some (compare a b)
  | .text a, .text b => some (compareOfLessAndEq a b)
  | .bytes a, .bytes b => some (if a < b then .lt else if a = b then .eq else .gt)
  | .timestamp s n, .timestamp s' n' => some ((compare s s').then (compare n n'))
  | .duration a, .duration b => some (compare a b)
  | a, b => compareNumbers a b

def sameScalar : Datum → Datum → Bool
  | .null, .null => true
  | .type a, .type b => a == b
  | a, b => compare? a b == some .eq

mutual
/-- Whether two values are equal; values of different types are not, numbers apart. -/
def same : Datum → Datum → Bool
  | .list a, .list b => sameItems a b
  | .map a, .map b => a.length == b.length && sameEntries a b
  | .list _, _ | .map _, _ => false
  | a, b => sameScalar a b

def sameItems : List Datum → List Datum → Bool
  | [], [] => true
  | a :: as, b :: bs => same a b && sameItems as bs
  | _, _ => false

def sameEntries : List (Datum × Datum) → List (Datum × Datum) → Bool
  | [], _ => true
  | entry :: rest, other => sameEntry entry other && sameEntries rest other

def sameEntry : Datum × Datum → List (Datum × Datum) → Bool
  | (k, v), other =>
    match other.find? fun e => sameScalar k e.1 with
    | some e => same v e.2
    | none => false
end

def find? (entries : List (Datum × Datum)) (key : Datum) : Option Datum :=
  (entries.find? fun e => sameScalar key e.1).map (·.2)

/-- Sets the value of a key of a map; keys of different types differ. -/
def put (key value : Datum) : List (Datum × Datum) → List (Datum × Datum)
  | [] => [(key, value)]
  | (k, v) :: rest =>
    if k.typeOf = key.typeOf && sameScalar k key then (key, value) :: rest
    else (k, v) :: put key value rest

end Datum

end PluginAudit.Suppression
