import Mathlib
import GameVault.Proofs.Cbor.RoundTrip

namespace GameVault

namespace Value

/-- Whether a value is other than the double `-0.0`. -/
def negativeZeroFreeHere : Value → Bool
  | .float x => x.bits != Double.signMask
  | _ => true

/-- A document with no `-0.0` at any depth: the documents the encoder writes back byte for byte. -/
def NegativeZeroFree (v : Value) : Prop := v.every negativeZeroFreeHere = true

instance : DecidablePred NegativeZeroFree :=
  fun v => inferInstanceAs (Decidable (v.every negativeZeroFreeHere = true))

theorem negativeZeroFree_array {items : List Value} :
    (Value.array items).NegativeZeroFree ↔ ∀ x ∈ items, x.NegativeZeroFree := by
  simp [NegativeZeroFree, every_array, negativeZeroFreeHere]

theorem negativeZeroFree_map {entries : List (Value × Value)} :
    (Value.map entries).NegativeZeroFree ↔ ∀ p ∈ entries, p.1.NegativeZeroFree ∧ p.2.NegativeZeroFree := by
  simp [NegativeZeroFree, every_map, negativeZeroFreeHere]

end Value

namespace Cbor

open Value

theorem argument_sign_and_size {major n : Nat} (int : major = 0 ∨ major = 1) (fits : n ≤ maxIntArgument) :
    (if 0 ≤ (Int64.ofInt (if major = 0 then (n : Int) else -1 - n)).toInt then 0 else 1) = major ∧
      intArgument (Int64.ofInt (if major = 0 then (n : Int) else -1 - n)) = n := by
  unfold maxIntArgument at fits
  rcases int with rfl | rfl
  · have exact : (Int64.ofInt n).toInt = n := Int64.toInt_ofInt_of_le (by omega) (by omega)
    simp only [intArgument]
    split_ifs <;> omega
  · have exact : (Int64.ofInt (-1 - n)).toInt = -1 - n := Int64.toInt_ofInt_of_le (by omega) (by omega)
    simp only [if_neg one_ne_zero, intArgument, exact]
    split_ifs <;> omega

theorem readValue_major {b : UInt8} {tl rest : List UInt8} {v : Value} (read : Reads (readValue (b :: tl)) v rest) :
    b.toNat / 32 = v.majorType := by
  have small : b.toNat / 32 < 8 := by have := b.toNat_lt; omega
  by_cases int : b.toNat / 32 = 0 ∨ b.toNat / 32 = 1
  · obtain ⟨n, -, fits, rfl⟩ := (readValue_int_iff int).mp read
    exact (argument_sign_and_size int fits).1.symm
  by_cases two : b.toNat / 32 = 2
  · obtain ⟨raw, -, rfl⟩ := (readValue_bytes_iff two).mp read
    exact two
  by_cases three : b.toNat / 32 = 3
  · obtain ⟨raw, s, -, -, rfl⟩ := (readValue_text_iff three).mp read
    exact three
  by_cases four : b.toNat / 32 = 4
  · obtain ⟨n, mid, items, -, -, rfl⟩ := (readValue_array_iff four).mp read
    exact four
  by_cases five : b.toNat / 32 = 5
  · obtain ⟨n, mid, entries, -, -, rfl⟩ := (readValue_map_iff five).mp read
    exact five
  by_cases six : b.toNat / 32 = 6
  · exact absurd read (readValue_tagged six)
  have seven : b.toNat / 32 = 7 := by omega
  rcases readSimple_iff.mp ((readValue_simple_iff (by omega)).mp read) with
    ⟨-, ⟨-, rfl⟩ | ⟨-, rfl⟩ | ⟨-, rfl⟩⟩ | ⟨-, raw, -, -, -, rfl⟩ <;> exact seven

theorem canonical_eq_self_iff (x : Double) : x.canonical = x ↔ x.bits ≠ Double.signMask := by
  obtain ⟨bits⟩ := x
  unfold Double.canonical
  split_ifs with zero
  · rcases (isZero_iff _).mp zero with cleared | negative
    · simp only at cleared
      simp [Double.zero, cleared, Double.signMask]
    · simp only at negative
      simp [Double.zero, negative, Double.signMask]
  · have notSign : ¬(bits = 0 ∨ bits = Double.signMask) := (isZero_iff _).not.mp zero
    simp only [true_iff]
    exact fun negative => notSign (Or.inr negative)

/-- What a successful read says about the value read: its sizes are within the reader's limits, and
when it holds no `-0.0` it can be encoded and its encoding is exactly the bytes read. -/
def ReadsBack (v : Value) : Prop :=
  ∀ {bs rest : List UInt8}, Reads (readValue bs) v rest →
    v.WithinLimits ∧ (v.NegativeZeroFree → v.Encodable ∧ bs = (write v).1 ++ rest)

theorem readValue_cons {bs rest : List UInt8} {v : Value} (read : Reads (readValue bs) v rest) :
    ∃ b tl, bs = b :: tl := by
  cases bs with
  | nil => exact absurd read readValue_nil
  | cons b tl => exact ⟨b, tl, rfl⟩

theorem firstByte_of {b : UInt8} {major info : Nat} (hasMajor : b.toNat / 32 = major) (hasInfo : b.toNat % 32 = info) :
    b = (major * 32 + info).toUInt8 := by
  rw [← hasMajor, ← hasInfo, firstByte_eq]

theorem cons_eq_head_append {b : UInt8} {tl rest : List UInt8} {n : Nat}
    (argument : Reads (readArgument (b.toNat % 32) tl) n rest) : b :: tl = head (b.toNat / 32) n ++ rest := by
  obtain ⟨info, bytes, -⟩ := readArgument_reads argument
  rw [head_append, ← info, firstByte_eq, bytes]

/-- Major type 7: `false`, `true` and `null` are one byte, and a double other than `-0.0` is written
back with the eight bytes it was read from. -/
theorem readsBack_simple {b : UInt8} {tl rest : List UInt8} {v : Value} (read : Reads (readValue (b :: tl)) v rest)
    (major : b.toNat / 32 = 7) :
    v.WithinLimits ∧ (v.NegativeZeroFree → v.Encodable ∧ b :: tl = (write v).1 ++ rest) := by
  rcases readSimple_iff.mp ((readValue_simple_iff (by omega)).mp read) with
    ⟨rfl, ⟨info, rfl⟩ | ⟨info, rfl⟩ | ⟨info, rfl⟩⟩ | ⟨info, raw, rfl, eight, notNaN, rfl⟩
  · exact ⟨rfl, fun _ => ⟨rfl, by rw [firstByte_of major info]; rfl⟩⟩
  · exact ⟨rfl, fun _ => ⟨rfl, by rw [firstByte_of major info]; rfl⟩⟩
  · exact ⟨rfl, fun _ => ⟨rfl, by rw [firstByte_of major info]; rfl⟩⟩
  · refine ⟨rfl, fun free => ⟨by simp [Value.Encodable, Value.every, Value.writableHere, notNaN], ?_⟩⟩
    have notNegative : (⟨(ofBigEndian raw).toUInt64⟩ : Double).bits ≠ Double.signMask := by
      simpa [Value.NegativeZeroFree, Value.every, Value.negativeZeroFreeHere] using free
    have bits : (ofBigEndian raw).toUInt64.toNat = ofBigEndian raw := by
      have := ofBigEndian_lt raw
      rw [eight] at this
      simp only [Nat.toUInt64_eq, UInt64.toNat_ofNat']
      exact Nat.mod_eq_of_lt (by simpa using this)
    rw [write, if_neg (by simp [notNaN]), (canonical_eq_self_iff _).mpr notNegative]
    dsimp only
    rw [bits, ← eight, bigEndian_ofBigEndian, firstByte_of major info]
    rfl

theorem readsBack_int (k : Int64) : ReadsBack (.int k) := by
  intro bs rest read
  obtain ⟨b, tl, rfl⟩ := readValue_cons read
  have major := readValue_major read
  have int : b.toNat / 32 = 0 ∨ b.toNat / 32 = 1 := by
    simp only [Value.majorType] at major
    split_ifs at major <;> omega
  obtain ⟨n, argument, fits, same⟩ := (readValue_int_iff int).mp read
  injection same with same
  subst same
  obtain ⟨sign, size⟩ := argument_sign_and_size int fits
  refine ⟨rfl, fun _ => ⟨rfl, ?_⟩⟩
  rw [cons_eq_head_append argument, write]
  dsimp only
  rw [sign, size]

theorem readsBack_bytes (raw : List UInt8) : ReadsBack (.bytes raw) := by
  intro bs rest read
  obtain ⟨b, tl, rfl⟩ := readValue_cons read
  obtain ⟨raw, string, same⟩ := (readValue_bytes_iff (readValue_major read)).mp read
  injection same with same
  subst same
  obtain ⟨argument, short⟩ := readLength_reads_iff.mp (readString_iff.mp string)
  refine ⟨by simpa [Value.WithinLimits, Value.every, Value.withinLimitsHere] using short, fun _ => ⟨rfl, ?_⟩⟩
  rw [cons_eq_head_append argument, readValue_major read, write]
  simp [Value.majorType]

theorem readsBack_text (s : String) : ReadsBack (.text s) := by
  intro bs rest read
  obtain ⟨b, tl, rfl⟩ := readValue_cons read
  obtain ⟨raw, s, string, text, same⟩ := (readValue_text_iff (readValue_major read)).mp read
  injection same with same
  subst same
  obtain ⟨argument, short⟩ := readLength_reads_iff.mp (readString_iff.mp string)
  rw [textOfUtf8_eq_ok.mp text, ← utf8ByteSize_eq_length] at argument short
  refine ⟨by simpa [Value.WithinLimits, Value.every, Value.withinLimitsHere] using short, fun _ => ⟨rfl, ?_⟩⟩
  rw [cons_eq_head_append argument, readValue_major read, write]
  simp [Value.majorType]

theorem readItems_readsBack {items : List Value} (each : ∀ x ∈ items, ReadsBack x) {n : Nat}
    {bs rest : List UInt8} (read : Reads (readItems n bs) items rest) :
    n = items.length ∧ (∀ x ∈ items, x.WithinLimits) ∧
      ((∀ x ∈ items, x.NegativeZeroFree) →
        (∀ x ∈ items, x.Encodable) ∧ bs = (items.flatMap fun x => (write x).1) ++ rest) := by
  induction items generalizing n bs with
  | nil =>
    cases n with
    | zero =>
      obtain ⟨-, rfl⟩ := readItems_zero_iff.mp read
      exact ⟨rfl, by simp, fun _ => ⟨by simp, rfl⟩⟩
    | succ n =>
      obtain ⟨_, _, _, _, _, impossible⟩ := readItems_succ_iff.mp read
      exact absurd impossible.symm (List.cons_ne_nil _ _)
  | cons x xs ih =>
    cases n with
    | zero => exact absurd (readItems_zero_iff.mp read).1 (List.cons_ne_nil _ _)
    | succ n =>
      obtain ⟨v, vs, mid, first, others, same⟩ := readItems_succ_iff.mp read
      obtain ⟨rfl, rfl⟩ := List.cons.inj same
      obtain ⟨withinFirst, backFirst⟩ := each x (by simp) first
      obtain ⟨length, withinOthers, backOthers⟩ := ih (fun y member => each y (by simp [member])) others
      refine ⟨by simp [length], List.forall_mem_cons.mpr ⟨withinFirst, withinOthers⟩, fun free => ?_⟩
      obtain ⟨encodableFirst, bytesFirst⟩ := backFirst (free x (by simp))
      obtain ⟨encodableOthers, bytesOthers⟩ := backOthers fun y member => free y (by simp [member])
      refine ⟨List.forall_mem_cons.mpr ⟨encodableFirst, encodableOthers⟩, ?_⟩
      rw [bytesFirst, bytesOthers, List.flatMap_cons, List.append_assoc]

/-- Reading pairs: besides what each key and value tells, the keys' encodings are the key bytes the
reader compared, so the pairs come strictly sorted by them and after the key read before. -/
theorem readEntries_readsBack {entries : List (Value × Value)} (each : ∀ p ∈ entries, ReadsBack p.1 ∧ ReadsBack p.2)
    {n : Nat} {previous : Option (List UInt8)} {bs rest : List UInt8}
    (read : Reads (readEntries n previous bs) entries rest) :
    n = entries.length ∧ (∀ p ∈ entries, p.1.WithinLimits ∧ p.2.WithinLimits) ∧
      ((∀ p ∈ entries, p.1.NegativeZeroFree ∧ p.2.NegativeZeroFree) →
        (∀ p ∈ entries, p.1.Encodable ∧ p.2.Encodable) ∧
        entries.Pairwise (fun a b => keyStrictlyBefore (write a.1).1 (write b.1).1 = true) ∧
        (∀ p ∈ entries, previous.all (fun q => keyStrictlyBefore q (write p.1).1) = true) ∧
        bs = (entries.flatMap fun p => (write p.1).1 ++ (write p.2).1) ++ rest) := by
  induction entries generalizing n previous bs with
  | nil =>
    cases n with
    | zero =>
      obtain ⟨-, rfl⟩ := readEntries_zero_iff.mp read
      exact ⟨rfl, by simp, fun _ => ⟨by simp, List.Pairwise.nil, by simp, rfl⟩⟩
    | succ n =>
      obtain ⟨_, _, _, _, _, _, _, _, _, impossible⟩ := readEntries_succ_iff.mp read
      exact absurd impossible.symm (List.cons_ne_nil _ _)
  | cons p ps ih =>
    cases n with
    | zero => exact absurd (readEntries_zero_iff.mp read).1 (List.cons_ne_nil _ _)
    | succ n =>
      obtain ⟨k, v, more, mid, mid', readKey, ordered, readValue', readMore, same⟩ := readEntries_succ_iff.mp read
      obtain ⟨rfl, rfl⟩ := List.cons.inj same
      obtain ⟨withinKey, backKey⟩ := (each (k, v) (by simp)).1 readKey
      obtain ⟨withinValue, backValue⟩ := (each (k, v) (by simp)).2 readValue'
      obtain ⟨length, withinMore, backMore⟩ := ih (fun q member => each q (by simp [member])) readMore
      refine ⟨by simp [length], List.forall_mem_cons.mpr ⟨⟨withinKey, withinValue⟩, withinMore⟩, fun free => ?_⟩
      obtain ⟨encodableKey, bytesKey⟩ := backKey (free (k, v) (by simp)).1
      obtain ⟨encodableValue, bytesValue⟩ := backValue (free (k, v) (by simp)).2
      have keyBytes : bs.take (bs.length - mid.length) = (write k).1 := by
        rw [bytesKey]
        simp
      rw [keyBytes] at ordered backMore
      obtain ⟨encodableMore, sorted, after, bytesMore⟩ := backMore fun q member => free q (by simp [member])
      refine ⟨List.forall_mem_cons.mpr ⟨⟨encodableKey, encodableValue⟩, encodableMore⟩, List.pairwise_cons.mpr ⟨after, sorted⟩,
        fun q member => ?_, ?_⟩
      · rcases List.mem_cons.mp member with rfl | member
        · exact ordered
        · cases previous with
          | none => rfl
          | some r => exact keyStrictlyBefore_trans ordered (after q member)
      · rw [bytesKey, bytesValue, bytesMore, List.flatMap_cons]
        simp

theorem readsBack (v : Value) : ReadsBack v := by
  induction v with
  | int k => exact readsBack_int k
  | bytes raw => exact readsBack_bytes raw
  | text s => exact readsBack_text s
  | array items ih =>
    intro bs rest read
    obtain ⟨b, tl, rfl⟩ := readValue_cons read
    obtain ⟨n, mid, decoded, length, elements, same⟩ := (readValue_array_iff (readValue_major read)).mp read
    injection same with same
    subst same
    obtain ⟨argument, short⟩ := readLength_reads_iff.mp length
    obtain ⟨count, within, back⟩ := readItems_readsBack ih elements
    subst count
    refine ⟨withinLimits_array.mpr ⟨short, within⟩, fun free => ?_⟩
    obtain ⟨encodable, bytes⟩ := back (negativeZeroFree_array.mp free)
    refine ⟨encodable_array.mpr encodable, ?_⟩
    rw [cons_eq_head_append argument, readValue_major read, bytes, write, andThen_ok,
      writeItems_of_ok fun x member => (write_ok_iff x).mpr (encodable x member)]
    simp [Value.majorType]
  | map entries ih =>
    intro bs rest read
    obtain ⟨b, tl, rfl⟩ := readValue_cons read
    obtain ⟨n, mid, decoded, length, pairs, same⟩ := (readValue_map_iff (readValue_major read)).mp read
    injection same with same
    subst same
    obtain ⟨argument, short⟩ := readLength_reads_iff.mp length
    obtain ⟨count, within, back⟩ := readEntries_readsBack ih pairs
    subst count
    refine ⟨withinLimits_map.mpr ⟨short, within⟩, fun free => ?_⟩
    obtain ⟨encodable, sorted, -, bytes⟩ := back (negativeZeroFree_map.mp free)
    have distinct : (entries.map fun p => (write p.1).1).Nodup :=
      List.pairwise_map.mpr (sorted.imp fun before same => by
        rw [same, keyStrictlyBefore_irrefl] at before
        exact Bool.false_ne_true before)
    have mapEncodable : (Value.map entries).Encodable := encodable_map.mpr ⟨distinct, encodable⟩
    refine ⟨mapEncodable, ?_⟩
    rw [cons_eq_head_append argument, readValue_major read, bytes, write_map_of_encodable mapEncodable,
      sortByEncodedKey_of_sorted (sorted.imp fun before => keyBefore_iff.mpr (Or.inl before))]
    simp [Value.majorType]
  | _ =>
    intro bs rest read
    obtain ⟨b, tl, rfl⟩ := readValue_cons read
    exact readsBack_simple read (readValue_major read)

theorem negativeZeroFree_reorder_canonical (v : Value) : (reorder Double.canonical v).NegativeZeroFree := by
  induction v with
  | float x =>
    have notNegative : x.canonical.bits ≠ Double.signMask :=
      (canonical_eq_self_iff x.canonical).mp (canonical_canonical x)
    simpa [reorder, Value.NegativeZeroFree, Value.every, Value.negativeZeroFreeHere] using notNegative
  | array items ih =>
    rw [reorder_array, negativeZeroFree_array]
    intro y member
    obtain ⟨x, original, rfl⟩ := List.mem_map.mp member
    exact ih x original
  | map entries ih =>
    rw [reorder_map, negativeZeroFree_map]
    intro q member
    obtain ⟨p, original, rfl⟩ := List.mem_map.mp ((List.mergeSort_perm _ _).mem_iff.mp member)
    exact ih p original
  | _ => rfl

theorem encode_eq_ok_iff {v : Value} {bs : List UInt8} : encode v = .ok bs ↔ v.Encodable ∧ (write v).1 = bs := by
  rw [← write_ok_iff]
  unfold encode
  rcases written : write v with ⟨out, _ | e⟩ <;> simp

theorem decode_double {raw : List UInt8} (eight : raw.length = 8)
    (notNaN : Double.isNaN ⟨(ofBigEndian raw).toUInt64⟩ = false) :
    decode (0xFB :: raw) = .ok (.float ⟨(ofBigEndian raw).toUInt64⟩) :=
  decode_eq_ok.mpr ((readValue_simple_iff (by decide)).mpr
    (readSimple_iff.mpr (Or.inr ⟨by decide, raw, by simp, eight, notNaN, rfl⟩)))

/-- A decoded document is written back as the bytes it was read from exactly when it holds no `-0.0`:
the decoder accepts the eight bytes of `-0.0`, which the encoder writes as `0.0`, and nothing else
that is not canonical. -/
theorem decode_encode_iff_negativeZeroFree {bs : List UInt8} {v : Value} (decoded : decode bs = .ok v) :
    encode v = .ok bs ↔ v.NegativeZeroFree := by
  have read := decode_eq_ok.mp decoded
  obtain ⟨within, back⟩ := readsBack v read
  constructor
  · intro encoded
    obtain ⟨encodable, bytes⟩ := encode_eq_ok_iff.mp encoded
    have again := decode_write encodable within
    rw [bytes, decoded] at again
    injection again with same
    rw [same]
    exact negativeZeroFree_reorder_canonical v
  · intro free
    obtain ⟨encodable, bytes⟩ := back free
    rw [encode_of_encodable encodable, bytes, List.append_nil]

theorem zero_decoded_and_written_back :
    decode [0xFB, 0, 0, 0, 0, 0, 0, 0, 0] = .ok (.float ⟨0⟩) ∧
      encode (.float ⟨0⟩) = .ok [0xFB, 0, 0, 0, 0, 0, 0, 0, 0] := by
  have decoded : decode [0xFB, 0, 0, 0, 0, 0, 0, 0, 0] = .ok (.float ⟨0⟩) := decode_double rfl (by decide)
  exact ⟨decoded, (decode_encode_iff_negativeZeroFree decoded).mpr (by decide)⟩

theorem negative_zero_decoded_not_written_back :
    decode [0xFB, 0x80, 0, 0, 0, 0, 0, 0, 0] = .ok (.float ⟨Double.signMask⟩) ∧
      encode (.float ⟨Double.signMask⟩) = .ok [0xFB, 0, 0, 0, 0, 0, 0, 0, 0] :=
  ⟨decode_double rfl (by decide), rfl⟩

theorem majorType_lt (v : Value) : v.majorType < 8 := by
  cases v with
  | int n =>
    simp only [Value.majorType]
    split_ifs <;> omega
  | _ => simp [Value.majorType]

/-- The first byte of an encoding carries the value's major type. -/
theorem write_cons {v : Value} (encodable : v.Encodable) :
    ∃ info tail, info < 32 ∧ (write v).1 = (v.majorType * 32 + info).toUInt8 :: tail := by
  cases v with
  | null => exact ⟨22, [], by decide, rfl⟩
  | bool b =>
    cases b
    · exact ⟨20, [], by decide, rfl⟩
    · exact ⟨21, [], by decide, rfl⟩
  | int n =>
    refine ⟨headInfo (intArgument n), bigEndian (argumentWidth (intArgument n)) (intArgument n), headInfo_lt _, ?_⟩
    rw [write, head_eq]
    rfl
  | float x =>
    have notNaN : x.isNaN = false := by simpa [Value.Encodable, Value.every, Value.writableHere] using encodable
    exact ⟨27, bigEndian 8 x.canonical.bits.toNat, by decide, by simp [write, notNaN, Value.majorType]⟩
  | bytes raw =>
    refine ⟨headInfo raw.length, bigEndian (argumentWidth raw.length) raw.length ++ raw, headInfo_lt _, ?_⟩
    rw [write, head_eq]
    rfl
  | text s =>
    refine ⟨headInfo s.utf8ByteSize, bigEndian (argumentWidth s.utf8ByteSize) s.utf8ByteSize ++ s.toUTF8.toList,
      headInfo_lt _, ?_⟩
    rw [write, head_eq]
    rfl
  | array items =>
    refine ⟨headInfo items.length, bigEndian (argumentWidth items.length) items.length ++ (writeItems items).1,
      headInfo_lt _, ?_⟩
    rw [write, andThen_ok, head_eq]
    rfl
  | map entries =>
    refine ⟨headInfo entries.length, bigEndian (argumentWidth entries.length) entries.length ++
      (sortByEncodedKey entries).flatMap (fun p => (write p.1).1 ++ (write p.2).1), headInfo_lt _, ?_⟩
    rw [write_map_of_encodable encodable, head_eq]
    rfl

theorem text_inj_of_utf8 {s t : String} (same : s.toUTF8.toList = t.toUTF8.toList) : s = t := by
  have first : textOfUtf8 s.toUTF8.toList = .ok s := textOfUtf8_eq_ok.mpr rfl
  have second : textOfUtf8 s.toUTF8.toList = .ok t := textOfUtf8_eq_ok.mpr same
  rw [first] at second
  injection second

theorem write_short_text {s : String} (short : s.utf8ByteSize < 24) :
    (write (.text s)).1 = (3 * 32 + s.utf8ByteSize).toUInt8 :: s.toUTF8.toList := by
  rw [write]
  dsimp only
  rw [head_eq]
  simp [headInfo, argumentWidth, short, bigEndian]

/-- A value encoded like a text of fewer than 24 bytes is that text. -/
theorem eq_text_of_write_eq {k : Value} {s : String} (encodable : k.Encodable) (short : s.utf8ByteSize < 24)
    (same : (write k).1 = (write (.text s)).1) : k = .text s := by
  have major : k.majorType = 3 := by
    obtain ⟨info, tail, small, bytes⟩ := write_cons encodable
    rw [bytes, write_short_text short] at same
    have byType := firstByte_major (majorType_lt k) small
    rw [(List.cons.inj same).1, firstByte_major (by decide) (by omega)] at byType
    exact byType.symm
  cases k with
  | text t =>
    rw [write_short_text short, write] at same
    dsimp only at same
    rw [head_eq] at same
    obtain ⟨first, rest⟩ := List.cons.inj same
    have info : (3 * 32 + headInfo t.utf8ByteSize).toUInt8.toNat % 32 = headInfo t.utf8ByteSize :=
      firstByte_info (headInfo_lt _)
    rw [first, firstByte_info (by omega)] at info
    have shortToo : t.utf8ByteSize < 24 := by
      unfold headInfo at info
      split_ifs at info <;> omega
    simp only [argumentWidth, shortToo, if_true, bigEndian] at rest
    rw [text_inj_of_utf8 rest]
  | int n =>
    simp only [Value.majorType] at major
    split_ifs at major
    simp at major
  | _ => simp [Value.majorType] at major

end Cbor

end GameVault
