import GameVault.Protocol.Values
import GameVault.Cbor.Encode
import GameVault.Cbor.Decode
import GameVault.Cbor.Item
import GameVault.Sorting.Hybrid

namespace GameVault

namespace Protocol

open Outcome

/-- `-1`, `0` or `1` for an ordering. -/
def orderingMessage : Ordering → Message
  | .lt => .int (-1)
  | .eq => .int 0
  | .gt => .int 1

/-- Indices of a list in a stable sort by `cmp`, sorted as indices are (narrow elements, blocks of
eight). An order test inconsistent enough for the sort to notice gives up, as the sort does. -/
def stableOrder {α : Type} [Inhabited α] (xs : List α) (cmp : α → α → Ordering) :
    Outcome (List Nat) :=
  let arr := xs.toArray
  let before (i j : Nat) : Bool := cmp (arr.getD i default) (arr.getD j default) == .lt
  match Sorting.sort before ⟨true⟩ (List.range xs.length) with
  | some order => pure order
  | none => throw (.abort Sorting.inconsistentOrder)

def indexList (xs : List Nat) : Message := listOf Message.nat xs

/-- What `kind` answers about a value. -/
def kindMessage (v : Value) : Message :=
  .obj [("kind", .str v.kind), ("is_null", .bool v.isNull),
    ("as_bool", optionOf Message.bool v.asBool?),
    ("as_integer", optionOf (fun n => Message.int n.toInt) v.asInt?),
    ("as_text", optionOf Message.str v.asText?),
    ("len", optionOf Message.nat v.size?)]

/-- A map key: a text. -/
def key (m : Message) : Outcome String :=
  match m with
  | .str s => pure s
  | _ => bad "key must be a string"

/-- One step on a value: its answer and the value after it. -/
def valueStep (v : Value) (step : Message) : Outcome (Message × Value) :=
  match step with
  | .obj [("get", k)] => do pure (someMessage (v.get? (← key k)), v)
  | .obj [("get_path", k)] => do pure (someMessage (v.getPath? (← key k)), v)
  | .obj [("set", .arr [k, x])] => do
    let (old, v') := v.set (← key k) (← valueOf x)
    pure (someMessage old, v')
  | .obj [("set", _)] => bad "expected an array of 2"
  | .obj [("remove", k)] => do
    let (old, v') := v.remove (← key k)
    pure (someMessage old, v')
  | .obj [("kind", _)] => pure (kindMessage v, v)
  | .obj [("as_float", _)] => pure (optionOf floatMessage v.asFloat?, v)
  | .obj [("as_bytes", _)] => pure (optionOf (fun bs => Message.str (toHex bs)) v.asBytes?, v)
  | .obj [(name, _)] => bad ("unknown value step " ++ quoted name)
  | _ => bad "a value step is a one-key object"

/-- Runs value steps in order; a failing step answers its error and leaves the value. -/
def valueSteps (v : Value) : List Message → List Message × Value
  | [] => ([], v)
  | s :: rest =>
    match valueStep v s with
    | .ok (r, v') => let (rs, w) := valueSteps v' rest; (r :: rs, w)
    | .error f => let (rs, w) := valueSteps v rest; (f.toMessage :: rs, w)

/-- An integer in a range, refused as `expected <what>`. -/
def intAs (what : String) (lo hi : Int) (m : Message) : Outcome Int :=
  match m with
  | .int n => if lo ≤ n ∧ n ≤ hi then pure n else bad ("expected " ++ what)
  | _ => bad ("expected " ++ what)

/-- A value built from a plain value of a named type. -/
def valueFrom (typ : String) (m : Message) : Outcome Value :=
  match typ with
  | "bool" => match m with
    | .bool b => pure (.bool b)
    | _ => bad "expected a bool"
  | "i64" => do pure (.int (Int64.ofInt (← intAs "an i64" i64Min i64Max m)))
  | "i32" => do pure (.int (Int64.ofInt (← intAs "an i32" (-2147483648) 2147483647 m)))
  | "u32" => do pure (.int (Int64.ofInt (← intAs "a u32" 0 4294967295 m)))
  | "f64" => do
    match ← valueOf m with
    | .int n => pure (.float (Double.ofInt n.toInt))
    | .float x => pure (.float x)
    | _ => bad "expected a number"
  | "string" | "str" => match m with
    | .str s => pure (.text s)
    | _ => bad "expected a string"
  | "bytes" | "slice" => match m with
    | .str s => do pure (.bytes (← ofHex s))
    | _ => bad "expected hex"
  | "unit" => pure .null
  | "empty_map" => pure Value.emptyMap
  | other => bad ("unknown type " ++ quoted other)

/-- The error record of an optional codec error. -/
def codecErrorMessage : Option CodecError → Message
  | some e => (Failure.codec e).toMessage
  | none => .null

/-- An integer item written as `{"$bigint": text}`: a decimal text within the 128-bit signed
range, whose value must lie in the integer range of the encoding, `-2 ^ 64` to `2 ^ 64 - 1`. -/
def bigInt (s : String) : Outcome Item :=
  match parseInt? s with
  | some n =>
    if n < -170141183460469231731687303715884105728 ∨ 170141183460469231731687303715884105727 < n then
      bad "bad $bigint"
    else if -18446744073709551616 ≤ n ∧ n ≤ 18446744073709551615 then pure (.int n)
    else bad "$bigint outside CBOR range"
  | none => bad "bad $bigint"

/-- The number of a tag, an unsigned 64-bit integer. -/
def tagNumber : Message → Outcome Nat
  | .int n => if 0 ≤ n ∧ n ≤ 18446744073709551615 then pure n.toNat else bad "tag must be a u64"
  | _ => bad "tag must be a u64"

mutual
/-- Reads a general item: the document forms, `{"$tag": [n, item]}`, `{"$bigint": text}`, and plain
integers, also those above the signed 64-bit range. -/
def itemOf : Message → Outcome Item
  | .int m => pure (.int m)
  | .arr items => do pure (.array (← itemsOf items))
  | .obj [("$tag", .arr [t, x])] => do
    let n ← tagNumber t
    pure (.tag n (← itemOf x))
  | .obj [("$tag", _)] => bad "expected an array of 2"
  | .obj [("$bigint", .str s)] => bigInt s
  | .obj [("$bigint", _)] => bad "bad $bigint"
  | .obj [("$map", .arr pairs)] => do pure (.map (← itemPairsOf pairs))
  | .obj fields =>
    match fields with
    | [("$int", _)] | [("$f64", _)] | [("$float", _)] | [("$bytes", _)] | [("$map", _)] => do
      pure (← valueOf (.obj fields)).toItem
    | _ => do pure (.map (← itemFieldsOf fields))
  | m => do pure (← valueOf m).toItem

/-- Reads a list of items. -/
def itemsOf : List Message → Outcome (List Item)
  | [] => pure []
  | m :: rest => do
    let i ← itemOf m
    pure (i :: (← itemsOf rest))

/-- Reads item pairs. -/
def itemPairsOf : List Message → Outcome (List (Item × Item))
  | [] => pure []
  | .arr [k, v] :: rest => do
    let k ← itemOf k
    let v ← itemOf v
    pure ((k, v) :: (← itemPairsOf rest))
  | _ :: _ => bad "expected an array of 2"

/-- Reads a plain record as text-keyed item pairs, in field order. -/
def itemFieldsOf : List (String × Message) → Outcome (List (Item × Item))
  | [] => pure []
  | (k, m) :: rest => do
    let v ← itemOf m
    pure ((.text k, v) :: (← itemFieldsOf rest))
end

mutual
/-- Writes a general item; integers beyond 64 bits as `{"$bigint": text}`. -/
def itemMessage : Item → Message
  | .null => .null
  | .bool b => .bool b
  | .int n =>
    if i64Min ≤ n ∧ n ≤ i64Max then .int n else .obj [("$bigint", .str (toString n))]
  | .float x => floatMessage x
  | .bytes bs => .obj [("$bytes", .str (toHex bs))]
  | .text s => .str s
  | .array items => .arr (itemListMessages items)
  | .map entries => .obj [("$map", .arr (itemPairMessages entries))]
  | .tag n i => .obj [("$tag", .arr [.nat n, itemMessage i])]

/-- Writes a list of items. -/
def itemListMessages : List Item → List Message
  | [] => []
  | i :: rest => itemMessage i :: itemListMessages rest

/-- Writes item pairs. -/
def itemPairMessages : List (Item × Item) → List Message
  | [] => []
  | (k, v) :: rest => .arr [itemMessage k, itemMessage v] :: itemPairMessages rest
end

/-- Answers a request on documents, if `op` names one. -/
def documentOp (op : String) (r : Message) : Option (Outcome Message) :=
  match op with
  | "encode" => some do
    let bs ← ofCodec (Cbor.encode (← req r "value" value))
    pure (.obj [("hex", .str (toHex bs))])
  | "decode" => some do
    let v ← ofCodec (Cbor.decode (← req r "hex" hex))
    pure (.obj [("value", valueMessage v)])
  | "roundtrip" => some do
    let v ← req r "value" value
    let bs ← ofCodec (Cbor.encode v)
    let back ← ofCodec (Cbor.decode bs)
    pure (.obj [("hex", .str (toHex bs)), ("value", valueMessage back), ("equal", .bool (back == v))])
  | "cmp" => some do
    let a ← req r "a" value
    let b ← req r "b" value
    pure (.obj [("canonical", orderingMessage (a.canonicalCmp b)),
      ("query", orderingMessage (a.queryCmp b)), ("equal", .bool (a == b))])
  | "sort_values" => some do
    let vs ← req r "values" values
    pure (.obj [("canonical", indexList (← stableOrder vs Value.canonicalCmp)),
      ("query", indexList (← stableOrder vs Value.queryCmp))])
  | "make_map" => some do
    let pairs ← pairsOf (← req r "pairs" sequence)
    pure (.obj [("value", valueMessage (Value.ofPairs pairs))])
  | "value_ops" => some do
    let v ← req r "value" value
    let (results, final) := valueSteps v (← req r "steps" sequence)
    pure (.obj [("results", .arr results), ("value", valueMessage final)])
  | "value_from" => some do
    let v ← valueFrom (← req r "type" text) ((r.get? "value").getD .null)
    pure (.obj [("value", valueMessage v)])
  | "encode_many" => some do
    let vs ← req r "values" values
    let _ ← opt r "capacity" u64
    let (bytes, n, err) := Cbor.writeAll vs
    pure (.obj [("hex", .str (toHex bytes)), ("encoded", .nat n), ("error", codecErrorMessage err)])
  | "decode_stream" => some do
    let (vs, err, rest) := Cbor.decodeStream (← req r "hex" hex)
    pure (.obj [("values", listOf valueMessage vs), ("error", codecErrorMessage err),
      ("remaining", .str (toHex rest))])
  | "serde_to_value" => some do
    let v ← ofCodec (← itemOf (← field r "value")).toValue
    pure (.obj [("value", valueMessage v)])
  | "serde_from_value" => some do
    let v ← req r "value" value
    pure (.obj [("value", itemMessage v.toItem)])
  | "serde_fail" => some do
    let reason ← req r "message" text
    ofCodec (.error (.serializeFailed reason))
  | _ => none

end Protocol

end GameVault
