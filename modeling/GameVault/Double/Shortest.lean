import GameVault.Double.Round

namespace GameVault

namespace Double

/-- Compares `d * 10 ^ k` with `u * 2 ^ s`, exactly. -/
def compareScaled (d : Nat) (k : Int) (u : Nat) (s : Int) : Ordering :=
  compare (d * Nat.pow 10 k.toNat * Nat.pow 2 (-s).toNat)
    (u * Nat.pow 2 s.toNat * Nat.pow 10 (-k).toNat)

/-- The number of decimal digits of a positive number (`1` for zero). -/
def decimalLength (n : Nat) : Nat := (Nat.toDigits 10 n).length

def ratioAtLeastPow10 (num den : Nat) (p : Int) : Bool :=
  if 0 ≤ p then num ≥ den * Nat.pow 10 p.toNat else num * Nat.pow 10 (-p).toNat ≥ den

/-- The exponent `p` with `10 ^ p ≤ num / den < 10 ^ (p + 1)`, for `num, den > 0`. -/
def decimalExponent (num den : Nat) : Int :=
  let p : Int := (decimalLength num : Int) - (decimalLength den : Int)
  if ratioAtLeastPow10 num den p then p else p - 1

/-- `num / den` divided by `10 ^ k`, rounded down. -/
def floorScaled (num den : Nat) (k : Int) : Nat :=
  if 0 ≤ k then num / (den * Nat.pow 10 k.toNat) else num * Nat.pow 10 (-k).toNat / den

/-- Drops the trailing zeros of a digit count, raising the exponent of the last digit to match. -/
def trimZeros (c : Nat) (k : Int) : Nat × Int :=
  go c k (decimalLength c)
where
  go (c : Nat) (k : Int) : Nat → Nat × Int
    | 0 => (c, k)
    | fuel + 1 => if c % 10 == 0 && c != 0 then go (c / 10) (k + 1) fuel else (c, k)

/-- The digits on the grid of `10 ^ k` that lie in the rounding interval of `x`, if any, and the
nearer one of two (the upper one of two equally near). The interval is given in units of `2 ^ s`: `lo`, `hi` and the value `v`. -/
def gridHit (num den : Nat) (k : Int) (lo hi v : Nat) (s : Int) (closed : Bool) : Option Nat :=
  let below := floorScaled num den k
  let inside := fun (c : Nat) =>
    (match compareScaled c k lo s with
      | .gt => true | .eq => closed | .lt => false) &&
    (match compareScaled c k hi s with
      | .lt => true | .eq => closed | .gt => false)
  match inside below, inside (below + 1) with
  | true, true =>
    match compareScaled (2 * below + 1) k (2 * v) s with
    | .gt => some below
    | .lt => some (below + 1)
    | .eq => some (below + 1)
  | true, false => some below
  | false, true => some (below + 1)
  | false, false => none

/-- The shortest decimal `c * 10 ^ k` that rounds to the finite nonzero double `x`, with no trailing
zero in `c`. -/
def shortest (x : Double) : Nat × Int :=
  let (m, e) := x.magnitude
  let (num, den) := x.toRatio
  let v := 4 * m
  let hi := v + 2
  let lo := if x.fractionField = 0 && x.exponentField > 1 then v - 1 else v - 2
  let closed := m % 2 == 0
  let p := decimalExponent num den
  let attempt := fun (n : Nat) => gridHit num den (p - n + 1) lo hi v (e - 2) closed
  let found := (List.range 17).findSome? fun i => (attempt (i + 1)).map fun c => (c, p - i)
  match found with
  | some (c, k) => trimZeros c k
  | none => trimZeros (floorScaled num den (p - 16)) (p - 16)

end Double

end GameVault
