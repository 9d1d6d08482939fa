import GameVault.Protocol.Failure
import GameVault.Cbor.Head
import GameVault.Double.Text

namespace GameVault

namespace Protocol

open Outcome

def quoted (s : String) : String := Quoted.quote s

/-- A required field. -/
def field (m : Message) (k : String) : Outcome Message :=
  match m.get? k with
  | some v => pure v
  | none => bad ("missing field " ++ quoted k)

def i64Min : Int := -9223372036854775808
def i64Max : Int := 9223372036854775807

/-- An integer in `[lo, hi]`, refused as `"what" must be an i64` with `typ` naming the type
and its article. -/
def intIn (what typ : String) (lo hi : Int) (m : Message) : Outcome Int :=
  match m with
  | .int n => if lo ≤ n ∧ n ≤ hi then pure n else bad (quoted what ++ " must be " ++ typ)
  | _ => bad (quoted what ++ " must be " ++ typ)

def i64 (what : String) (m : Message) : Outcome Int := intIn what "an i64" i64Min i64Max m

def u64 (what : String) (m : Message) : Outcome Nat := do
  pure (← intIn what "a u64" 0 18446744073709551615 m).toNat

def u32 (what : String) (m : Message) : Outcome Nat := do
  pure (← intIn what "a u32" 0 4294967295 m).toNat

/-- A text. -/
def text (what : String) (m : Message) : Outcome String :=
  match m with
  | .str s => pure s
  | _ => bad (quoted what ++ " must be a string")

/-- A text in an optional field, whose refusal names the field without quotes. -/
def label (what : String) (m : Message) : Outcome String :=
  match m with
  | .str s => pure s
  | _ => bad (what ++ " must be a string")

/-- An optional text field that is ignored unless it holds a text. -/
def textIfAny (m : Message) (k : String) : Option String :=
  match m.get? k with
  | some (.str s) => some s
  | _ => none

/-- A boolean. -/
def bool (what : String) (m : Message) : Outcome Bool :=
  match m with
  | .bool b => pure b
  | _ => bad (quoted what ++ " must be a bool")

/-- A list. -/
def list (what : String) (m : Message) : Outcome (List Message) :=
  match m with
  | .arr items => pure items
  | _ => bad (quoted what ++ " must be an array")

/-- A list in a field whose refusal names the field without quotes. -/
def sequence (what : String) (m : Message) : Outcome (List Message) :=
  match m with
  | .arr items => pure items
  | _ => bad (what ++ " must be a list")

def req {α : Type} (m : Message) (k : String) (read : String → Message → Outcome α) : Outcome α := do
  read k (← field m k)

/-- An optional field read by `read`; a field that is present is read, also when it is null. -/
def opt {α : Type} (m : Message) (k : String) (read : String → Message → Outcome α) :
    Outcome (Option α) :=
  match m.get? k with
  | some v => (read k v).map some
  | none => pure none

/-- An optional field with a default. -/
def optD {α : Type} (m : Message) (k : String) (read : String → Message → Outcome α) (d : α) :
    Outcome α := do
  pure ((← opt m k read).getD d)

/-- Value of a hexadecimal digit. -/
def hexDigit? (c : Char) : Option Nat :=
  if '0' ≤ c ∧ c ≤ '9' then some (c.toNat - '0'.toNat)
  else if 'a' ≤ c ∧ c ≤ 'f' then some (c.toNat - 'a'.toNat + 10)
  else if 'A' ≤ c ∧ c ≤ 'F' then some (c.toNat - 'A'.toNat + 10)
  else none

/-- The byte of a pair of characters read as a hexadecimal number: two digits, or a plus sign and
one digit. -/
def pairValue? (a b : Char) : Option Nat :=
  if a = '+' then hexDigit? b
  else do pure ((← hexDigit? a) * 16 + (← hexDigit? b))

/-- Reads a text two characters at a time as hexadecimal bytes. -/
def hexPairs : List Char → Option (List UInt8)
  | [] => some []
  | a :: b :: rest => do
    let v ← pairValue? a b
    pure (v.toUInt8 :: (← hexPairs rest))
  | [_] => none

/-- Bytes written in hexadecimal, two characters for each: two digits, or a plus sign and a digit.
A text of an odd number of bytes is refused first, by its length; then a pair that is not a byte,
which includes every pair with a character beyond ASCII. -/
def ofHex (s : String) : Outcome (List UInt8) :=
  if s.utf8ByteSize % 2 = 1 then bad "odd hex length"
  else
    match hexPairs s.toList with
    | some bs => pure bs
    | none => bad "bad hex"

def hex (what : String) (m : Message) : Outcome (List UInt8) := do
  ofHex (← text what m)

/-- Two lowercase hexadecimal digits of a byte. -/
def hexByte (b : UInt8) : String :=
  let s := String.ofList (Nat.toDigits 16 b.toNat)
  if s.length < 2 then "0" ++ s else s

def toHex (bs : List UInt8) : String := String.join (bs.map hexByte)

def listOf {α : Type} (f : α → Message) (xs : List α) : Message := .arr (xs.map f)

/-- An optional message, null when absent. -/
def optionOf {α : Type} (f : α → Message) : Option α → Message
  | some a => f a
  | none => .null

end Protocol

end GameVault
