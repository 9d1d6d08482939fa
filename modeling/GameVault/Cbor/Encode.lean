import GameVault.Cbor.Head
import GameVault.Value.Order

namespace GameVault

namespace Cbor

/-- Bytes written, and the error that stopped the writing if one did. -/
abbrev Written := List UInt8 × Option CodecError

/-- Writes `first`, then `next` unless `first` failed. -/
def Written.andThen (first : Written) (next : Unit → Written) : Written :=
  match first with
  | (bs, none) => let (more, e) := next (); (bs ++ more, e)
  | (bs, some e) => (bs, some e)

/-- Orders encoded keys: shorter first, then bytewise. -/
def keyBefore (a b : List UInt8) : Bool :=
  a.length < b.length || (a.length == b.length && compareBytes a b != .gt)

/-- Whether two neighbours of a list are equal. -/
def hasAdjacentDuplicate : List (List UInt8) → Bool
  | a :: b :: rest => a == b || hasAdjacentDuplicate (b :: rest)
  | _ => false

/-- Writes a map from the encodings of its keys and the writing of its values, in stored order. -/
def writeMap (entries : List (Written × Written)) : Written :=
  match entries.findSome? (fun (k, _) => k.2) with
  | some e => ([], some e)
  | none =>
    let sorted := entries.mergeSort fun a b => keyBefore a.1.1 b.1.1
    if hasAdjacentDuplicate (sorted.map fun p => p.1.1) then
      ([], some (.invalidStructure .duplicateKey))
    else
      Written.andThen (head 5 entries.length, none) fun _ =>
        sorted.foldr (fun (k, v) acc => Written.andThen (k.1, none) fun _ =>
          Written.andThen v fun _ => acc) ([], none)

mutual
/-- Writes a value in canonical form. -/
def write : Value → Written
  | .null => ([0xF6], none)
  | .bool false => ([0xF4], none)
  | .bool true => ([0xF5], none)
  | .int n => (head (if 0 ≤ n.toInt then 0 else 1) (intArgument n), none)
  | .float x =>
    if x.isNaN then ([], some .nanForbidden) else (0xFB :: bigEndian 8 x.canonical.bits.toNat, none)
  | .bytes bs => (head 2 bs.length ++ bs, none)
  | .text s => (head 3 s.utf8ByteSize ++ s.toUTF8.toList, none)
  | .array items => Written.andThen (head 4 items.length, none) fun _ => writeItems items
  | .map entries => writeMap (writeEntries entries)

/-- Writes elements one after another, stopping at the first error. -/
def writeItems : List Value → Written
  | [] => ([], none)
  | x :: xs => Written.andThen (write x) fun _ => writeItems xs

/-- The encoding of each key and the writing of each value, in stored order. -/
def writeEntries : List (Value × Value) → List (Written × Written)
  | [] => []
  | (k, v) :: rest => (write k, write v) :: writeEntries rest
end

/-- The canonical encoding of a value. -/
def encode (v : Value) : Except CodecError (List UInt8) :=
  match write v with
  | (bs, none) => .ok bs
  | (_, some e) => .error e

/-- Writes values one after another into one output, stopping at the first error: all bytes written
(those of the failing value included), the number of values written whole, and the error. -/
def writeAll : List Value → List UInt8 × Nat × Option CodecError
  | [] => ([], 0, none)
  | v :: vs =>
    match write v with
    | (bs, none) => let (more, n, e) := writeAll vs; (bs ++ more, n + 1, e)
    | (bs, some e) => (bs, 0, some e)

end Cbor

end GameVault
