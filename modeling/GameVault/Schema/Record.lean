import GameVault.Schema.Fault
import GameVault.Value.Basic

namespace GameVault

namespace Schema

/-- A result of reading. -/
abbrev Decoded := Except SchemaFault

/-- What a value read at once is described as. -/
def found : Value → Found
  | .null => .null
  | .bool b => .bool b
  | .int n => .int n.toInt
  | .float x => .float x
  | .bytes _ => .bytes
  | .text s => .text s
  | .array _ => .sequence
  | .map _ => .map

/-- What a value set aside is described as: a null is an absent option. -/
def foundAside : Value → Found
  | .null => .absent
  | v => found v

/-- A text. -/
def text : Value → Decoded String
  | .text s => .ok s
  | v => .error (.invalidType (found v) "str")

/-- An integer in `[lo, hi]`; `typ` names the type when out of range. -/
def intIn (typ : String) (lo hi : Int) : Value → Decoded Int
  | .int n => if lo ≤ n.toInt ∧ n.toInt ≤ hi then .ok n.toInt else .error (.invalidType (.int n.toInt) typ)
  | v => .error (.invalidType (found v) "(big)int")

def unsigned32 (v : Value) : Decoded UInt32 := do
  pure (← intIn "u32" 0 4294967295 v).toNat.toUInt32

def signed32 (v : Value) : Decoded Int32 := do
  pure (Int32.ofInt (← intIn "i32" (-2147483648) 2147483647 v))

def signed64 (v : Value) : Decoded Int64 := do
  pure (Int64.ofInt (← intIn "i64" (-9223372036854775808) 9223372036854775807 v))

/-- Puts a count under a key, replacing an earlier count of the same key in place. -/
def putCount (k : Int32) (n : UInt32) : List (Int32 × UInt32) → List (Int32 × UInt32)
  | [] => [(k, n)]
  | (k', n') :: rest => if k' = k then (k, n) :: rest else (k', n') :: putCount k n rest

/-- A map from signed to unsigned 32-bit integers; of two equal keys the later wins. -/
def countsFrom (acc : List (Int32 × UInt32)) : List (Value × Value) → Decoded (List (Int32 × UInt32))
  | [] => .ok acc
  | (k, v) :: rest => do
    let key ← signed32 k
    let count ← unsigned32 v
    countsFrom (putCount key count acc) rest

/-- A map from signed to unsigned 32-bit integers. -/
def counts : Value → Decoded (List (Int32 × UInt32))
  | .map entries => countsFrom [] entries
  | v => .error (.invalidType (found v) "map")

/-- A signed 64-bit integer set aside. -/
def asideSigned64 : Value → Decoded Int64
  | .int n => .ok n
  | v => .error (.invalidType (foundAside v) "i64")

/-- An unsigned 64-bit integer set aside; a negative integer is out of range. -/
def asideUnsigned64 : Value → Decoded UInt64
  | .int n => if n.toInt < 0 then .error (.invalidValue (.int n.toInt) "u64") else .ok n.toUInt64
  | v => .error (.invalidType (foundAside v) "u64")

/-- A boolean set aside. -/
def asideBool : Value → Decoded Bool
  | .bool b => .ok b
  | v => .error (.invalidType (foundAside v) "a boolean")

/-- Walks entries left to right: own fields (checked by `check`) are kept, a second occurrence
refused before its value is read, and the rest set aside. `seen` and `aside` hold what was found
so far, latest first. Answers the own fields found and the entries set aside, in stored order. -/
def walk (own : List String) (check : String → Value → Decoded Unit)
    (seen aside : List (String × Value)) :
    List (Value × Value) → Decoded (List (String × Value) × List (String × Value))
  | [] => .ok (seen.reverse, aside.reverse)
  | (k, v) :: rest =>
    match k with
    | .text key =>
      if own.contains key then
        if seen.any (·.1 = key) then .error (.duplicateField key)
        else do
          check key v
          walk own check ((key, v) :: seen) aside rest
      else walk own check seen ((key, v) :: aside) rest
    | other => .error (.invalidType (found other) "str")

end Schema

end GameVault
