import GameVault.Protocol.Message
import GameVault.Double.Round

namespace GameVault

namespace Json

/-- What went wrong reading a text. -/
inductive Problem where
  | eofWhileParsingList
  | eofWhileParsingObject
  | eofWhileParsingString
  | eofWhileParsingValue
  | expectedColon
  | expectedListCommaOrEnd
  | expectedObjectCommaOrEnd
  | expectedSomeIdent
  | expectedSomeValue
  | invalidEscape
  | invalidNumber
  | numberOutOfRange
  | controlCharacterWhileParsingString
  | keyMustBeAString
  | loneLeadingSurrogateInHexEscape
  | trailingComma
  | trailingCharacters
  | unexpectedEndOfHexEscape
  | recursionLimitExceeded
  deriving DecidableEq, Inhabited

/-- The text of a problem. -/
def Problem.message : Problem → String
  | .eofWhileParsingList => "EOF while parsing a list"
  | .eofWhileParsingObject => "EOF while parsing an object"
  | .eofWhileParsingString => "EOF while parsing a string"
  | .eofWhileParsingValue => "EOF while parsing a value"
  | .expectedColon => "expected `:`"
  | .expectedListCommaOrEnd => "expected `,` or `]`"
  | .expectedObjectCommaOrEnd => "expected `,` or `\x7d`"
  | .expectedSomeIdent => "expected ident"
  | .expectedSomeValue => "expected value"
  | .invalidEscape => "invalid escape"
  | .invalidNumber => "invalid number"
  | .numberOutOfRange => "number out of range"
  | .controlCharacterWhileParsingString =>
    "control character (\\u0000-\\u001F) found while parsing a string"
  | .keyMustBeAString => "key must be a string"
  | .loneLeadingSurrogateInHexEscape => "lone leading surrogate in hex escape"
  | .trailingComma => "trailing comma"
  | .trailingCharacters => "trailing characters"
  | .unexpectedEndOfHexEscape => "unexpected end of hex escape"
  | .recursionLimitExceeded => "recursion limit exceeded"

/-- A reading error: the problem and the byte offset where it is reported. -/
structure ReadError where
  problem : Problem
  offset : Nat
  deriving DecidableEq, Inhabited

/-- What a reading step gives: a result, the characters left and the byte offset reached. -/
abbrev Reads (α : Type) := Except ReadError (α × List Char × Nat)

def failAt {α : Type} (p : Problem) (offset : Nat) : Reads α := .error ⟨p, offset⟩

/-- The offset of a problem found by looking at the next character without taking it: one byte
past the reader, or the reader itself at the end of the text. -/
def ahead (rest : List Char) (offset : Nat) : Nat := if rest.isEmpty then offset else offset + 1

def u64Max : Nat := 18446744073709551615

/-- The largest signed 32-bit integer, the bound of a written exponent. -/
def i32Max : Nat := 2147483647

def overflows (acc d limit : Nat) : Bool :=
  decide (acc > limit / 10) || (decide (acc = limit / 10) && decide (d > limit % 10))

def digitValue (c : Char) : Nat := c.toNat - '0'.toNat

/-- Appends decimal digits to `acc` while the value stays within `limit`; answers the value and how
many digits went in. The first digit that would pass the limit stops it. -/
def accumulate (limit : Nat) : Nat → List Char → Nat × Nat
  | acc, [] => (acc, 0)
  | acc, c :: rest =>
    if overflows acc (digitValue c) limit then (acc, 0)
    else
      let (v, n) := accumulate limit (acc * 10 + digitValue c) rest
      (v, n + 1)

/-- An exponent clamped to the signed 32-bit range. -/
def saturate (e : Int) : Int := max (-2147483648) (min 2147483647 e)

/-- The double nearest to `10 ^ k`. -/
def pow10 (k : Nat) : Double := Double.ofNat (Nat.pow 10 k)

/-- Scales a nonnegative double by `10 ^ e`: one product or quotient by the power when
`|e| ≤ 308`; below that, quotients by `10 ^ 308` until the power is in range or the value is zero.
Nothing when a product overflows or the exponent is too large for a nonzero value. Three rounds
suffice, a value below `2 ^ 64` being zero after two quotients by `10 ^ 308`. -/
def scale : Nat → Double → Int → Option Double
  | 0, f, _ => some f
  | fuel + 1, f, e =>
    if e.natAbs ≤ 308 then
      if 0 ≤ e then
        let g := Double.mul f (pow10 e.natAbs)
        if g.isInfinite then none else some g
      else some (Double.div f (pow10 e.natAbs))
    else if f.isZero then some f
    else if 0 ≤ e then none
    else scale fuel (Double.div f (pow10 308)) (e + 308)

/-- The double of a significand and a decimal exponent, with its sign; out of range at `offset`. -/
def fromParts (positive : Bool) (significand : Nat) (e : Int) (rest : List Char) (offset : Nat) :
    Reads Message :=
  match scale 4 (Double.ofNat significand) e with
  | some f => .ok (.float (if positive then f else f.neg), rest, offset)
  | none => failAt .numberOutOfRange offset

/-- The number of a whole significand with its sign: an integer, except `-0` and negative values
below `-2 ^ 63`, which are doubles. -/
def wholeNumber (positive : Bool) (significand : Nat) : Message :=
  if positive then .int significand
  else if significand = 0 then .float (Double.zero.neg)
  else if significand ≤ 9223372036854775808 then .int (-(significand : Int))
  else .float (Double.ofNat significand).neg

/-- Reads an exponent after `e` or `E`: an optional sign and one or more digits. An exponent that
passes the 32-bit range is out of range for a nonzero significand with a positive exponent, and
gives zero otherwise. -/
def exponentPart (positive : Bool) (significand : Nat) (start : Int) (cs : List Char)
    (offset : Nat) : Reads Message :=
  let (positiveExp, cs, offset) := match cs with
    | '+' :: r => (true, r, offset + 1)
    | '-' :: r => (false, r, offset + 1)
    | r => (true, r, offset)
  match cs with
  | [] => failAt .eofWhileParsingValue offset
  | c :: rest =>
    if !c.isDigit then failAt .invalidNumber (offset + 1)
    else
      let (digits, more) := rest.span Char.isDigit
      let (e, taken) := accumulate i32Max (digitValue c) digits
      if taken < digits.length then
        if significand != 0 && positiveExp then failAt .numberOutOfRange (offset + taken + 2)
        else
          let zero := if positive then Double.zero else Double.zero.neg
          .ok (.float zero, more, offset + 1 + digits.length)
      else
        let final := saturate (if positiveExp then start + e else start - e)
        fromParts positive significand final more (offset + 1 + digits.length)

/-- Reads the fraction after a point: one or more digits, appended to the significand while it
fits 64 bits, then an optional exponent. -/
def fractionPart (positive : Bool) (significand : Nat) (start : Int) (cs : List Char)
    (offset : Nat) : Reads Message :=
  let (digits, more) := cs.span Char.isDigit
  if digits.isEmpty then
    if more.isEmpty then failAt .eofWhileParsingValue offset else failAt .invalidNumber (offset + 1)
  else
    let (sig, taken) := accumulate u64Max significand digits
    let e := start - taken
    let offset := offset + digits.length
    match more with
    | c :: rest =>
      if c = 'e' || c = 'E' then exponentPart positive sig e rest (offset + 1)
      else fromParts positive sig e more offset
    | [] => fromParts positive sig e more offset

/-- Continues a number after its integer digits: the significand they gave and how many digits
were dropped from it. -/
def afterInteger (positive : Bool) (significand dropped : Nat) (cs : List Char) (offset : Nat) :
    Reads Message :=
  match cs with
  | '.' :: rest => fractionPart positive significand dropped rest (offset + 1)
  | c :: rest =>
    if c = 'e' || c = 'E' then exponentPart positive significand dropped rest (offset + 1)
    else if dropped = 0 then .ok (wholeNumber positive significand, cs, offset)
    else fromParts positive significand dropped cs offset
  | [] =>
    if dropped = 0 then .ok (wholeNumber positive significand, cs, offset)
    else fromParts positive significand dropped cs offset

/-- Reads a number from its first digit (after the minus sign of a negative one). A leading zero
stands alone. -/
def readNumber (positive : Bool) (cs : List Char) (offset : Nat) : Reads Message :=
  match cs with
  | [] => failAt .eofWhileParsingValue offset
  | c :: rest =>
    if c = '0' then
      match rest with
      | d :: _ =>
        if d.isDigit then failAt .invalidNumber (offset + 2)
        else afterInteger positive 0 0 rest (offset + 1)
      | [] => afterInteger positive 0 0 rest (offset + 1)
    else if c.isDigit then
      let (digits, more) := rest.span Char.isDigit
      let all := c :: digits
      let (sig, taken) := accumulate u64Max 0 all
      afterInteger positive sig (all.length - taken) more (offset + all.length)
    else failAt .invalidNumber (offset + 1)

end Json

end GameVault
