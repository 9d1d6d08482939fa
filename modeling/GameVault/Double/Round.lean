import GameVault.Double.Basic

namespace GameVault

namespace Double

/-- The magnitude of a finite double as `significand * 2 ^ exponent`. -/
def magnitude (x : Double) : Nat × Int :=
  if x.exponentField = 0 then (x.fractionField, -1074)
  else (x.fractionField + Nat.pow 2 52, (x.exponentField : Int) - 1075)

/-- The magnitude of a finite double as a fraction `(numerator, denominator)`. -/
def toRatio (x : Double) : Nat × Nat :=
  let (m, e) := x.magnitude
  if 0 ≤ e then (m * Nat.pow 2 e.toNat, 1) else (m, Nat.pow 2 (-e).toNat)

def ratioAtLeastPow2 (num den : Nat) (p : Int) : Bool :=
  if 0 ≤ p then num ≥ den * Nat.pow 2 p.toNat else num * Nat.pow 2 (-p).toNat ≥ den

/-- Rounds `num / den` to the nearest integer, a tie going to the even one. -/
def roundHalfEven (num den : Nat) : Nat :=
  let q := num / den
  let r := num % den
  if 2 * r > den || (2 * r == den && q % 2 == 1) then q + 1 else q

/-- Sets the sign bit when `negative`. -/
def withSign (negative : Bool) (bits : UInt64) : Double :=
  if negative then ⟨bits ||| signMask⟩ else ⟨bits⟩

/-- The double nearest to `num / den` (`den > 0`), negated when `negative`. Magnitudes beyond the
largest finite double round to infinity. -/
def ofRatio (negative : Bool) (num den : Nat) : Double :=
  if num = 0 then withSign negative 0
  else
    let l : Int := (num.log2 : Int) - (den.log2 : Int)
    let e : Int := if ratioAtLeastPow2 num den l then l else l - 1
    if e < -1022 then
      withSign negative (roundHalfEven (num * Nat.pow 2 1074) den).toUInt64
    else
      let shift := 52 - e
      let q := if 0 ≤ shift then roundHalfEven (num * Nat.pow 2 shift.toNat) den
        else roundHalfEven num (den * Nat.pow 2 (-shift).toNat)
      let (q, e) := if q = Nat.pow 2 53 then (Nat.pow 2 52, e + 1) else (q, e)
      if e > 1023 then withSign negative infinity.bits
      else withSign negative (((e + 1023).toNat * Nat.pow 2 52 + (q - Nat.pow 2 52)).toUInt64)

def ofNat (n : Nat) : Double := ofRatio false n 1

def ofInt (n : Int) : Double := ofRatio (n < 0) n.natAbs 1

/-- Sum of two finite doubles, rounded once. An exact zero sum is `+0.0` unless both
operands are `-0.0`. -/
def add (x y : Double) : Double :=
  let (nx, dx) := x.toRatio
  let (ny, dy) := y.toRatio
  let a : Int := (if x.signBit then -1 else 1) * ((nx * dy : Nat) : Int)
  let b : Int := (if y.signBit then -1 else 1) * ((ny * dx : Nat) : Int)
  let s := a + b
  if s = 0 then (if x.signBit && y.signBit then withSign true 0 else zero)
  else ofRatio (s < 0) s.natAbs (dx * dy)

/-- Product of two finite doubles, rounded once; its sign is the exclusive or of theirs, also when
it is zero. -/
def mul (x y : Double) : Double :=
  let (nx, dx) := x.toRatio
  let (ny, dy) := y.toRatio
  ofRatio (x.signBit != y.signBit) (nx * ny) (dx * dy)

/-- Quotient of two finite doubles, the divisor nonzero, rounded once. -/
def div (x y : Double) : Double :=
  let (nx, dx) := x.toRatio
  let (ny, dy) := y.toRatio
  ofRatio (x.signBit != y.signBit) (nx * dy) (dx * ny)

/-- Whether a finite double is above zero. -/
def isPositive (x : Double) : Bool := !x.signBit && !x.isZero && !x.isNaN

end Double

end GameVault
