import GameVault.Double.Basic

namespace GameVault

/-- A document value. -/
inductive Value where
  | null
  | bool (b : Bool)
  | int (n : Int64)
  | float (x : Double)
  | bytes (bs : List UInt8)
  | text (s : String)
  | array (items : List Value)
  | map (entries : List (Value × Value))
  deriving Inhabited

namespace Value

mutual
/-- Document equality: doubles compare numerically, containers element by element in order. -/
def beq : Value → Value → Bool
  | .null, .null => true
  | .bool a, .bool b => a == b
  | .int a, .int b => a == b
  | .float a, .float b => a.ieeeEq b
  | .bytes a, .bytes b => a == b
  | .text a, .text b => a == b
  | .array a, .array b => beqItems a b
  | .map a, .map b => beqEntries a b
  | _, _ => false

/-- Document equality of two element lists. -/
def beqItems : List Value → List Value → Bool
  | [], [] => true
  | x :: xs, y :: ys => beq x y && beqItems xs ys
  | _, _ => false

/-- Document equality of two pair lists, in order. -/
def beqEntries : List (Value × Value) → List (Value × Value) → Bool
  | [], [] => true
  | (k, v) :: xs, (k', v') :: ys => beq k k' && beq v v' && beqEntries xs ys
  | _, _ => false
end

instance : BEq Value := ⟨beq⟩

/-- Short name of the kind of a value. -/
def kind : Value → String
  | .null => "null"
  | .bool _ => "bool"
  | .int _ => "integer"
  | .float _ => "float"
  | .bytes _ => "bytes"
  | .text _ => "text"
  | .array _ => "array"
  | .map _ => "map"

/-- Whether the value is null. -/
def isNull : Value → Bool
  | .null => true
  | _ => false

/-- The boolean of a `bool`. -/
def asBool? : Value → Option Bool
  | .bool b => some b
  | _ => none

/-- The integer of an `int`. -/
def asInt? : Value → Option Int64
  | .int n => some n
  | _ => none

/-- The double of a `float`. -/
def asFloat? : Value → Option Double
  | .float x => some x
  | _ => none

/-- The bytes of a `bytes`. -/
def asBytes? : Value → Option (List UInt8)
  | .bytes bs => some bs
  | _ => none

/-- The text of a `text`. -/
def asText? : Value → Option String
  | .text s => some s
  | _ => none

/-- The elements of an `array`. -/
def asArray? : Value → Option (List Value)
  | .array items => some items
  | _ => none

/-- The pairs of a `map`. -/
def asMap? : Value → Option (List (Value × Value))
  | .map entries => some entries
  | _ => none

/-- Whether a key is the text `key`. -/
def isKey (key : String) (k : Value) : Bool :=
  match k with
  | .text s => s == key
  | _ => false

/-- The value of the first pair keyed by the text `key`. -/
def lookup (key : String) : List (Value × Value) → Option Value
  | [] => none
  | (k, v) :: rest => if isKey key k then some v else lookup key rest

/-- The value under a text key of a map; nothing for other values. -/
def get? (v : Value) (key : String) : Option Value :=
  match v with
  | .map entries => lookup key entries
  | _ => none

/-- Follows a dotted path through nested maps: each segment between dots is a key. -/
def getPath? (v : Value) (path : String) : Option Value :=
  (path.splitOn ".").foldlM (fun cur seg => cur.get? seg) v

/-- Replaces the value of the first pair keyed by `key`, returning the old value. -/
def replaceFirst (key : String) (x : Value) : List (Value × Value) → Option (Value × List (Value × Value))
  | [] => none
  | (k, v) :: rest =>
    if isKey key k then some (v, (k, x) :: rest)
    else (replaceFirst key x rest).map fun (old, rest') => (old, (k, v) :: rest')

/-- Removes the first pair keyed by `key`, returning its value. -/
def removeFirst (key : String) : List (Value × Value) → Option (Value × List (Value × Value))
  | [] => none
  | (k, v) :: rest =>
    if isKey key k then some (v, rest)
    else (removeFirst key rest).map fun (old, rest') => (old, (k, v) :: rest')

/-- Removes a text key from a map, returning its value and the new map. Other values are kept. -/
def remove (v : Value) (key : String) : Option Value × Value :=
  match v with
  | .map entries =>
    match removeFirst key entries with
    | some (old, rest) => (some old, .map rest)
    | none => (none, v)
  | _ => (none, v)

/-- The number of elements, pairs or bytes of a container or byte string. -/
def size? : Value → Option Nat
  | .bytes bs => some bs.length
  | .array items => some items.length
  | .map entries => some entries.length
  | _ => none

end Value

end GameVault
