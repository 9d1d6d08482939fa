import GameVault.Cbor.Encode
import GameVault.Hash.Xxh3

namespace GameVault

/-- The field holding the time of the last update. -/
def updateTimeField : String := "update_time"

def updateCountField : String := "update_count"

/-- The 128-bit content hash of a document. -/
structure Fingerprint where
  hash : Nat
  deriving DecidableEq, Inhabited

namespace Fingerprint

/-- The document as fingerprinted: a map without its top-level update stamp and update count. -/
def stablePart : Value → Value
  | .map entries => .map (entries.filter fun (k, _) =>
      !(Value.isKey updateTimeField k || Value.isKey updateCountField k))
  | other => other

/-- The fingerprint of a document under a hash of byte strings; fails where the document has no
canonical encoding. -/
def ofHash (hash : List UInt8 → Nat) (doc : Value) : Except CodecError Fingerprint := do
  let bytes ← Cbor.encode (stablePart doc)
  pure ⟨hash bytes⟩

/-- The fingerprint of a document: the 128-bit XXH3 hash of its stable part's encoding. -/
def of (doc : Value) : Except CodecError Fingerprint := ofHash Xxh3.hash128 doc

/-- Thirty-two lowercase hexadecimal digits. -/
def hex (f : Fingerprint) : String :=
  let ds := Nat.toDigits 16 f.hash
  String.ofList (List.replicate (32 - ds.length) '0' ++ ds)

end Fingerprint

end GameVault
