/-!
Double-precision numbers as their sixty-four bits, so that equality is decidable, with the exact
value of a finite one as a whole number times a power of two.
-/

namespace PluginAudit

structure Double where
  bits : UInt64
deriving DecidableEq

namespace Double

def ofFloat (x : Float) : Double := ⟨x.toBits⟩

def toFloat (x : Double) : Float := Float.ofBits x.bits

def ofInt (n : Int) : Double := ofFloat (Float.ofInt n)

instance : Inhabited Double := ⟨⟨0⟩⟩

def isNegative (x : Double) : Bool := x.bits >>> 63 == 1

def biasedExponent (x : Double) : Nat := ((x.bits >>> 52) &&& 0x7FF).toNat

def fraction (x : Double) : Nat := (x.bits &&& 0xFFFFFFFFFFFFF).toNat

def isFinite (x : Double) : Bool := x.biasedExponent != 0x7FF

def significand (x : Double) : Nat :=
  if x.biasedExponent = 0 then x.fraction else x.fraction + Nat.pow 2 52

def scale (x : Double) : Int :=
  if x.biasedExponent = 0 then -1074 else Int.ofNat x.biasedExponent - 1075

def isZero (x : Double) : Bool := x.isFinite && x.significand == 0

def isUndefined (x : Double) : Bool := !x.isFinite && x.fraction != 0

def isBelowZero (x : Double) : Bool := x.isNegative && !x.isZero && !x.isUndefined

def isAboveZero (x : Double) : Bool := !x.isNegative && !x.isZero && !x.isUndefined

end Double

end PluginAudit
