import GameVault.Protocol.Fields
import GameVault.Value.Order

namespace GameVault

namespace Protocol

open Outcome

def intValue (n : Int) : Outcome Value :=
  if i64Min ≤ n ∧ n ≤ i64Max then pure (.int (Int64.ofInt n)) else bad "integer outside i64"

/-- The text of a special form such as `{"$int": text}`. -/
def formText (form : String) (m : Message) : Outcome String :=
  match m with
  | .str s => pure s
  | _ => bad (form ++ " needs a string")

/-- A decimal integer text with an optional sign. -/
def parseInt? (s : String) : Option Int :=
  let digits (ds : List Char) : Option Nat :=
    if ds.isEmpty || !ds.all Char.isDigit then none else some (Double.digitsValue ds)
  match s.toList with
  | '-' :: ds => (digits ds).map fun n => -(n : Int)
  | '+' :: ds => (digits ds).map fun n => (n : Int)
  | ds => (digits ds).map fun n => (n : Int)

/-- The value of hexadecimal digits, most significant first. -/
def hexNumber? : List Char → Nat → Option Nat
  | [], acc => some acc
  | c :: rest, acc => do hexNumber? rest (acc * 16 + (← hexDigit? c))

/-- A double from its bits as a hexadecimal number: one or more digits after an optional plus
sign, below `2 ^ 64`. -/
def bitsOfHex (s : String) : Outcome Double :=
  let digits := match s.toList with
    | '+' :: ds => ds
    | ds => ds
  match hexNumber? digits 0 with
  | some n => if digits.isEmpty || n ≥ 18446744073709551616 then bad "bad $f64" else pure ⟨n.toUInt64⟩
  | none => bad "bad $f64"

/-- A double written as text. -/
def floatOfText (s : String) : Outcome Double :=
  match Double.ofText? s with
  | some x => pure x
  | none => bad ("bad float " ++ quoted s)

mutual
/-- Reads a document value. -/
def valueOf : Message → Outcome Value
  | .null => pure .null
  | .bool b => pure (.bool b)
  | .int m => intValue m
  | .float x => pure (.float x)
  | .str s => pure (.text s)
  | .arr items => do pure (.array (← valuesOf items))
  | .obj [("$int", v)] => do
    match parseInt? (← formText "$int" v) with
    | some n => if i64Min ≤ n ∧ n ≤ i64Max then pure (.int (Int64.ofInt n)) else bad "bad $int"
    | none => bad "bad $int"
  | .obj [("$f64", v)] => do pure (.float (← bitsOfHex (← formText "$f64" v)))
  | .obj [("$float", v)] => do pure (.float (← floatOfText (← formText "$float" v)))
  | .obj [("$bytes", v)] => do pure (.bytes (← ofHex (← formText "$bytes" v)))
  | .obj [("$map", .arr pairs)] => do pure (.map (← pairsOf pairs))
  | .obj [("$map", _)] => bad "$map needs an array"
  | .obj fields => do pure (Value.ofPairs (← fieldsOf fields))

/-- Reads a list of values. -/
def valuesOf : List Message → Outcome (List Value)
  | [] => pure []
  | m :: rest => do
    let v ← valueOf m
    pure (v :: (← valuesOf rest))

/-- Reads `[key, value]` pairs. -/
def pairsOf : List Message → Outcome (List (Value × Value))
  | [] => pure []
  | .arr [k, v] :: rest => do
    let k ← valueOf k
    let v ← valueOf v
    pure ((k, v) :: (← pairsOf rest))
  | _ :: _ => bad "expected an array of 2"

/-- Reads the fields of a plain record as text-keyed pairs. -/
def fieldsOf : List (String × Message) → Outcome (List (Value × Value))
  | [] => pure []
  | (k, m) :: rest => do
    let v ← valueOf m
    pure ((.text k, v) :: (← fieldsOf rest))
end

def value (_what : String) (m : Message) : Outcome Value := valueOf m

def values (what : String) (m : Message) : Outcome (List Value) := do
  valuesOf (← list what m)

/-- The message of a double: its bits in hexadecimal. -/
def floatMessage (x : Double) : Message :=
  .obj [("$f64", .str (toHex (Cbor.bigEndian 8 x.bits.toNat)))]

mutual
/-- Writes a document value. -/
def valueMessage : Value → Message
  | .null => .null
  | .bool b => .bool b
  | .int n => .int n.toInt
  | .float x => floatMessage x
  | .bytes bs => .obj [("$bytes", .str (toHex bs))]
  | .text s => .str s
  | .array items => .arr (itemMessages items)
  | .map entries => .obj [("$map", .arr (entryMessages entries))]

/-- Writes a list of values. -/
def itemMessages : List Value → List Message
  | [] => []
  | v :: rest => valueMessage v :: itemMessages rest

/-- Writes pairs as two-element lists. -/
def entryMessages : List (Value × Value) → List Message
  | [] => []
  | (k, v) :: rest => .arr [valueMessage k, valueMessage v] :: entryMessages rest
end

/-- An optional value: null when absent, `{"some": v}` when present. -/
def someMessage : Option Value → Message
  | some v => .obj [("some", valueMessage v)]
  | none => .null

end Protocol

end GameVault
