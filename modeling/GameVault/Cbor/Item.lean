import GameVault.Value.Order
import GameVault.Cbor.Error

namespace GameVault

/-- A CBOR data item. -/
inductive Item where
  | null
  | bool (b : Bool)
  | int (n : Int)
  | float (x : Double)
  | bytes (bs : List UInt8)
  | text (s : String)
  | array (items : List Item)
  | map (entries : List (Item × Item))
  | tag (n : Nat) (item : Item)
  deriving Inhabited

namespace Item

mutual
/-- The document of an item. -/
def toValue : Item → Except CodecError Value
  | .null => pure .null
  | .bool b => pure (.bool b)
  | .int n =>
    if -9223372036854775808 ≤ n ∧ n ≤ 9223372036854775807 then pure (.int (Int64.ofInt n))
    else .error .integerOverflow
  | .float x => pure (.float x)
  | .bytes bs => pure (.bytes bs)
  | .text s => pure (.text s)
  | .array items => do pure (.array (← itemsToValues items))
  | .map entries => do pure (Value.ofPairs (← entriesToValues entries))
  | .tag n _ => .error (.unsupportedType (.tag n))

/-- The documents of a list of items. -/
def itemsToValues : List Item → Except CodecError (List Value)
  | [] => pure []
  | i :: rest => do
    let v ← toValue i
    pure (v :: (← itemsToValues rest))

/-- The document pairs of item pairs. -/
def entriesToValues : List (Item × Item) → Except CodecError (List (Value × Value))
  | [] => pure []
  | (k, v) :: rest => do
    let k' ← toValue k
    let v' ← toValue v
    pure ((k', v') :: (← entriesToValues rest))
end

end Item

namespace Value

mutual
/-- The item of a document, pairs kept in stored order. -/
def toItem : Value → Item
  | .null => .null
  | .bool b => .bool b
  | .int n => .int n.toInt
  | .float x => .float x
  | .bytes bs => .bytes bs
  | .text s => .text s
  | .array items => .array (itemsToItems items)
  | .map entries => .map (entriesToItems entries)

/-- The items of a list of documents. -/
def itemsToItems : List Value → List Item
  | [] => []
  | v :: rest => toItem v :: itemsToItems rest

/-- The item pairs of document pairs. -/
def entriesToItems : List (Value × Value) → List (Item × Item)
  | [] => []
  | (k, v) :: rest => (toItem k, toItem v) :: entriesToItems rest
end

end Value

end GameVault
