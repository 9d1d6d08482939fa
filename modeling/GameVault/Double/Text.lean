import GameVault.Double.Shortest

namespace GameVault

namespace Double

/-- Choices of a written form of doubles. -/
structure Style where
  /-- Nonzero magnitudes below `10 ^ sciBelow` are written with an exponent. -/
  sciBelow : Option Int
  /-- Magnitudes of at least `10 ^ sciFrom` are written with an exponent. -/
  sciFrom : Option Int
  /-- Whether a positional whole number is followed by `.0`. -/
  pointZero : Bool

/-- The diagnostic form: exponent notation below `1e-4` and from `1e16`, whole numbers as `1.0`. -/
def Style.diagnostic : Style := ⟨some (-4), some 16, true⟩

/-- The plain form: always positional, whole numbers without a point. -/
def Style.plain : Style := ⟨none, none, false⟩

/-- The form of a double inside a type mismatch message: positional, whole numbers as `1.0`. -/
def Style.mismatch : Style := ⟨none, none, true⟩

def digitText (c : Nat) : String := String.ofList (Nat.toDigits 10 c)

def zeros (n : Nat) : String := String.ofList (List.replicate n '0')

/-- Positional text of `c * 10 ^ k`, with a point only where a fraction is left. -/
def positional (c : Nat) (k : Int) (pointZero : Bool) : String :=
  let ds := digitText c
  if 0 ≤ k then ds ++ zeros k.toNat ++ (if pointZero then ".0" else "")
  else
    let places := (-k).toNat
    if places < ds.length then
      String.ofList (ds.toList.take (ds.length - places)) ++ "." ++
        String.ofList (ds.toList.drop (ds.length - places))
    else "0." ++ zeros (places - ds.length) ++ ds

/-- Exponent text of `c * 10 ^ k`: the first digit, the others after a point, then `e` and the
exponent of the first digit. -/
def scientific (c : Nat) (k : Int) : String :=
  let ds := (digitText c).toList
  let first := String.ofList (ds.take 1)
  let rest := String.ofList (ds.drop 1)
  let exp := k + (ds.length : Int) - 1
  first ++ (if rest.isEmpty then "" else "." ++ rest) ++ "e" ++ toString exp

/-- The text of a double in a style. -/
def render (style : Style) (x : Double) : String :=
  if x.isNaN then "NaN"
  else if x.isInfinite then (if x.signBit then "-inf" else "inf")
  else
    let sign := if x.signBit then "-" else ""
    if x.isZero then sign ++ (if style.pointZero then "0.0" else "0")
    else
      let (c, k) := x.shortest
      let p := k + ((digitText c).length : Int) - 1
      let sci := (match style.sciBelow with | some b => decide (p < b) | none => false) ||
        (match style.sciFrom with | some f => decide (f ≤ p) | none => false)
      sign ++ (if sci then scientific c k else positional c k style.pointZero)

/-- Value of a run of decimal digits. -/
def digitsValue (ds : List Char) : Nat :=
  ds.foldl (fun acc d => acc * 10 + (d.toNat - '0'.toNat)) 0

/-- The double nearest to `mant * 10 ^ exp`, negated when `negative`. Exponents far outside the
range of doubles go straight to infinity or zero. -/
def ofDecimal (negative : Bool) (mant : Nat) (exp : Int) : Double :=
  if mant = 0 then withSign negative 0
  else
    let top := exp + (decimalLength mant : Int)
    if top > 310 then withSign negative infinity.bits
    else if top < -325 then withSign negative 0
    else if 0 ≤ exp then ofRatio negative (mant * Nat.pow 10 exp.toNat) 1
    else ofRatio negative mant (Nat.pow 10 (-exp).toNat)

/-- Reads the unsigned decimal part `digits[.digits][e[+-]digits]`, at least one digit before or
after the point. -/
def readUnsigned (cs : List Char) : Option (Nat × Int) :=
  let whole := cs.takeWhile Char.isDigit
  let afterWhole := cs.dropWhile Char.isDigit
  let (frac, afterFrac) := match afterWhole with
    | '.' :: r => (r.takeWhile Char.isDigit, r.dropWhile Char.isDigit)
    | r => ([], r)
  if whole.isEmpty && frac.isEmpty then none
  else
    let mant := digitsValue (whole ++ frac)
    let scale : Int := -(frac.length : Int)
    match afterFrac with
    | [] => some (mant, scale)
    | c :: r =>
      if (c == 'e' || c == 'E') then
        let (expNeg, digits) := match r with
          | '-' :: d => (true, d)
          | '+' :: d => (false, d)
          | d => (false, d)
        if digits.isEmpty || !digits.all Char.isDigit then none
        else
          let e : Int := digitsValue digits
          some (mant, scale + (if expNeg then -e else e))
      else none

/-- Reads a double from text, rounding to nearest: an optional sign, then digits with an optional
point and exponent, or `inf`, `infinity` or `nan` in any case. -/
def ofText? (s : String) : Option Double :=
  let cs := s.toList
  let (negative, body) := match cs with
    | '-' :: r => (true, r)
    | '+' :: r => (false, r)
    | r => (false, r)
  let word := String.ofList (body.map Char.toLower)
  if word == "inf" || word == "infinity" then some (withSign negative infinity.bits)
  else if word == "nan" then some (withSign negative nan.bits)
  else (readUnsigned body).map fun (mant, exp) => ofDecimal negative mant exp

end Double

end GameVault
