
namespace GameVault

/-- A binary64 number, given by its IEEE 754 bit pattern. -/
structure Double where
  bits : UInt64
  deriving DecidableEq, Inhabited

namespace Double

def fractionMask : UInt64 := 0x000FFFFFFFFFFFFF

def exponentMask : UInt64 := 0x7FF0000000000000

def signMask : UInt64 := 0x8000000000000000

def zero : Double := ⟨0⟩

def nan : Double := ⟨0x7FF8000000000000⟩

def infinity : Double := ⟨0x7FF0000000000000⟩

def exponentField (x : Double) : Nat := ((x.bits &&& exponentMask) >>> 52).toNat

def fractionField (x : Double) : Nat := (x.bits &&& fractionMask).toNat

/-- Whether the sign bit is set (also for `-0.0` and negative NaNs). -/
def signBit (x : Double) : Bool := x.bits &&& signMask != 0

/-- A NaN has an exponent field of all ones and a nonzero fraction. -/
def isNaN (x : Double) : Bool := x.exponentField = 2047 && x.fractionField != 0

/-- Infinite values have an exponent field of all ones and a zero fraction. -/
def isInfinite (x : Double) : Bool := x.exponentField = 2047 && x.fractionField = 0

/-- Finite values are those that are neither infinite nor NaN. -/
def isFinite (x : Double) : Bool := x.exponentField != 2047

def isZero (x : Double) : Bool := x.bits &&& ~~~signMask == 0

def neg (x : Double) : Double := ⟨x.bits ^^^ signMask⟩

def abs (x : Double) : Double := ⟨x.bits &&& ~~~signMask⟩

/-- The form written to documents: negative zero becomes positive zero, all else is kept. -/
def canonical (x : Double) : Double := if x.isZero then zero else x

/-- Numeric equality of the standard: NaN equals nothing, and the two zeros are equal. -/
def ieeeEq (x y : Double) : Bool :=
  !x.isNaN && !y.isNaN && (x.bits == y.bits || (x.isZero && y.isZero))

/-- Position of a bit pattern in the total order of IEEE 754 (section 5.10): negative NaNs first,
then negative numbers by decreasing magnitude, `-0.0`, `+0.0`, positive numbers, positive NaNs. -/
def totalKey (x : Double) : Int :=
  if x.signBit then -((x.bits &&& ~~~signMask).toNat : Int) - 1 else (x.bits.toNat : Int)

/-- The total order of IEEE 754 on bit patterns. -/
def totalCmp (x y : Double) : Ordering := compare x.totalKey y.totalKey

end Double

end GameVault
