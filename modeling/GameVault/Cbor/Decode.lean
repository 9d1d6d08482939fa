import GameVault.Cbor.Head
import GameVault.Value.Order

namespace GameVault

namespace Cbor

def maxStringLength : Nat := 268435456

/-- Most elements or pairs an array or map may claim. -/
def maxEntries : Nat := 16777216

/-- Largest argument of a nonnegative (or, as `-1 - n`, negative) 64-bit integer. -/
def maxIntArgument : Nat := 9223372036854775807

/-- Whether `a` comes strictly before `b` among encoded keys: shorter first, then bytewise. -/
def keyStrictlyBefore (a b : List UInt8) : Bool :=
  a.length < b.length || (a.length == b.length && compareBytes a b == .lt)

/-- Reads a length, refusing claims above `limit`. -/
def readLength (info limit : Nat) (bs : List UInt8) : Read bs Nat :=
  match readArgument info bs with
  | ⟨.ok n, rest, h⟩ =>
    if n ≤ limit then .ok n rest h else .fail (.sizeLimitExceeded n limit) rest h
  | ⟨.error e, rest, h⟩ => .fail e rest h

/-- Reads an item of major type 7: false, true, null or an eight-byte double. -/
def readSimple (info : Nat) (bs : List UInt8) : Read bs Value :=
  if info = 20 then .here (.bool false)
  else if info = 21 then .here (.bool true)
  else if info = 22 then .here .null
  else if info = 25 ∨ info = 26 then .stop .floatWidth
  else if info = 27 then
    match takeBytes 8 bs with
    | ⟨.ok raw, rest, h⟩ =>
      let x : Double := ⟨(ofBigEndian raw).toUInt64⟩
      if x.isNaN then .fail .nanForbidden rest h else .ok (.float x) rest h
    | ⟨.error e, rest, h⟩ => .fail e rest h
  else if info = 31 then .stop (.invalidStructure .strayBreak)
  else .stop (.unsupportedType (.simple info))

/-- Reads a string of a claimed length. -/
def readString (info : Nat) (bs : List UInt8) : Read bs (List UInt8) :=
  match readLength info maxStringLength bs with
  | ⟨.ok n, rest, h⟩ => (takeBytes n rest).widen h
  | ⟨.error e, rest, h⟩ => .fail e rest h

/-- Text from UTF-8 bytes, refusing invalid sequences. -/
def textOfUtf8 (raw : List UInt8) : Except CodecError String :=
  match String.fromUTF8? (ByteArray.mk raw.toArray) with
  | some s => .ok s
  | none => .error .invalidUtf8

mutual
/-- Reads one value from the front of `bs`. -/
def readValue (bs : List UInt8) : Read bs Value :=
  match bs with
  | [] => .stop .unexpectedEof
  | b :: tl =>
    let major := b.toNat / 32
    let info := b.toNat % 32
    have step : tl.length ≤ (b :: tl).length := Nat.le_succ _
    if major = 0 ∨ major = 1 then
      match readArgument info tl with
      | ⟨.ok n, rest, h⟩ =>
        if n ≤ maxIntArgument then
          .ok (.int (Int64.ofInt (if major = 0 then (n : Int) else -1 - (n : Int)))) rest
            (Nat.le_trans h step)
        else .fail .integerOverflow rest (Nat.le_trans h step)
      | ⟨.error e, rest, h⟩ => .fail e rest (Nat.le_trans h step)
    else if major = 2 then
      match readString info tl with
      | ⟨.ok raw, rest, h⟩ => .ok (.bytes raw) rest (Nat.le_trans h step)
      | ⟨.error e, rest, h⟩ => .fail e rest (Nat.le_trans h step)
    else if major = 3 then
      match readString info tl with
      | ⟨.ok raw, rest, h⟩ =>
        match textOfUtf8 raw with
        | .ok s => .ok (.text s) rest (Nat.le_trans h step)
        | .error e => .fail e rest (Nat.le_trans h step)
      | ⟨.error e, rest, h⟩ => .fail e rest (Nat.le_trans h step)
    else if major = 4 then
      match readLength info maxEntries tl with
      | ⟨.ok n, rest, h⟩ =>
        match readItems n rest with
        | ⟨.ok items, rest', h'⟩ => .ok (.array items) rest' (by simp at h h' ⊢; omega)
        | ⟨.error e, rest', h'⟩ => .fail e rest' (by simp at h h' ⊢; omega)
      | ⟨.error e, rest, h⟩ => .fail e rest (Nat.le_trans h step)
    else if major = 5 then
      match readLength info maxEntries tl with
      | ⟨.ok n, rest, h⟩ =>
        match readEntries n none rest with
        | ⟨.ok entries, rest', h'⟩ => .ok (.map entries) rest' (by simp at h h' ⊢; omega)
        | ⟨.error e, rest', h'⟩ => .fail e rest' (by simp at h h' ⊢; omega)
      | ⟨.error e, rest, h⟩ => .fail e rest (Nat.le_trans h step)
    else if major = 6 then .fail (.unsupportedType .tagged) tl step
    else (readSimple info tl).widen step
termination_by (bs.length, 0, 0)
decreasing_by all_goals (simp at h ⊢; apply Prod.Lex.left; omega)

/-- Reads `n` values one after another. -/
def readItems (n : Nat) (bs : List UInt8) : Read bs (List Value) :=
  match n with
  | 0 => .here []
  | n + 1 =>
    match readValue bs with
    | ⟨.ok v, rest, h⟩ =>
      match readItems n rest with
      | ⟨.ok vs, rest', h'⟩ => .ok (v :: vs) rest' (Nat.le_trans h' h)
      | ⟨.error e, rest', h'⟩ => .fail e rest' (Nat.le_trans h' h)
    | ⟨.error e, rest, h⟩ => .fail e rest h
termination_by (bs.length, 1, n)
decreasing_by
  · apply Prod.Lex.right; apply Prod.Lex.left; omega
  · rcases Nat.lt_or_eq_of_le h with h | h
    · exact Prod.Lex.left _ _ h
    · rw [h]; apply Prod.Lex.right; apply Prod.Lex.right; omega

/-- Reads `n` key and value pairs, each key strictly after the one before in encoded order. -/
def readEntries (n : Nat) (previous : Option (List UInt8)) (bs : List UInt8) :
    Read bs (List (Value × Value)) :=
  match n with
  | 0 => .here []
  | n + 1 =>
    match readValue bs with
    | ⟨.ok k, rest, h⟩ =>
      let keyBytes := bs.take (bs.length - rest.length)
      if previous.all (fun p => keyStrictlyBefore p keyBytes) then
        match readValue rest with
        | ⟨.ok v, rest', h'⟩ =>
          match readEntries n (some keyBytes) rest' with
          | ⟨.ok more, rest'', h''⟩ => .ok ((k, v) :: more) rest'' (by omega)
          | ⟨.error e, rest'', h''⟩ => .fail e rest'' (by omega)
        | ⟨.error e, rest', h'⟩ => .fail e rest' (Nat.le_trans h' h)
      else .fail (.invalidStructure .keysUnsorted) rest h
    | ⟨.error e, rest, h⟩ => .fail e rest h
termination_by (bs.length, 1, n)
decreasing_by
  · apply Prod.Lex.right; apply Prod.Lex.left; omega
  · rcases Nat.lt_or_eq_of_le h with h | h
    · exact Prod.Lex.left _ _ h
    · rw [h]; apply Prod.Lex.right; apply Prod.Lex.left; omega
  · rcases Nat.lt_or_eq_of_le (Nat.le_trans h' h) with h | h
    · exact Prod.Lex.left _ _ h
    · rw [h]; apply Prod.Lex.right; apply Prod.Lex.right; omega
end

/-- Reads one value from the front of the bytes: the value or the error, and the bytes left. -/
def decodeNext (bs : List UInt8) : Except CodecError Value × List UInt8 :=
  let r := readValue bs
  (r.result, r.rest)

/-- Decodes bytes holding exactly one value. -/
def decode (bs : List UInt8) : Except CodecError Value :=
  match decodeNext bs with
  | (.ok v, []) => .ok v
  | (.ok _, _ :: _) => .error (.invalidStructure .trailingBytes)
  | (.error e, _) => .error e

/-- Reads values until the bytes run out or a read fails: the values, the error, and the bytes left
at the stop. -/
def decodeStream (bs : List UInt8) : List Value × Option CodecError × List UInt8 :=
  if bs.isEmpty then ([], none, [])
  else
    match readValue bs with
    | ⟨.ok v, rest, _⟩ =>
      if rest.length < bs.length then
        let (vs, e, left) := decodeStream rest
        (v :: vs, e, left)
      else ([v], none, rest)
    | ⟨.error e, rest, _⟩ => ([], some e, rest)
termination_by bs.length

end Cbor

end GameVault
