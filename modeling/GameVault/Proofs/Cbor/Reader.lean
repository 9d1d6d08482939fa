import Mathlib
import GameVault.Proofs.Cbor.Head

namespace GameVault.Cbor

theorem readValue_int_iff {b : UInt8} {tl rest : List UInt8} {v : Value}
    (major : b.toNat / 32 = 0 ∨ b.toNat / 32 = 1) :
    Reads (readValue (b :: tl)) v rest ↔ ∃ n, Reads (readArgument (b.toNat % 32) tl) n rest ∧
      n ≤ maxIntArgument ∧ v = .int (Int64.ofInt (if b.toNat / 32 = 0 then n else -1 - n)) := by
  rw [readValue]
  simp only [major, if_true]
  generalize readArgument (b.toNat % 32) tl = r
  rcases r with ⟨_ | n, left, bound⟩
  · simp [Reads, Read.fail]
  · by_cases fits : n ≤ maxIntArgument
    · simp [Reads, Read.ok, fits, eq_comm, and_comm]
    · simp [Reads, Read.fail, fits]

theorem readValue_bytes_iff {b : UInt8} {tl rest : List UInt8} {v : Value} (major : b.toNat / 32 = 2) :
    Reads (readValue (b :: tl)) v rest ↔ ∃ raw, Reads (readString (b.toNat % 32) tl) raw rest ∧
      v = .bytes raw := by
  rw [readValue]
  simp only [major]
  generalize readString (b.toNat % 32) tl = r
  rcases r with ⟨_ | raw, left, bound⟩
  · simp [Reads, Read.fail]
  · simp [Reads, Read.ok, eq_comm, and_comm]

theorem readValue_text_iff {b : UInt8} {tl rest : List UInt8} {v : Value} (major : b.toNat / 32 = 3) :
    Reads (readValue (b :: tl)) v rest ↔ ∃ raw s, Reads (readString (b.toNat % 32) tl) raw rest ∧
      textOfUtf8 raw = .ok s ∧ v = .text s := by
  rw [readValue]
  simp only [major]
  generalize readString (b.toNat % 32) tl = r
  rcases r with ⟨_ | raw, left, bound⟩
  · simp [Reads, Read.fail]
  · cases text : textOfUtf8 raw with
    | error e => simp [Reads, Read.fail, text]
    | ok s => simp [Reads, Read.ok, text, eq_comm, and_comm]

theorem readValue_array_iff {b : UInt8} {tl rest : List UInt8} {v : Value} (major : b.toNat / 32 = 4) :
    Reads (readValue (b :: tl)) v rest ↔ ∃ n mid items, Reads (readLength (b.toNat % 32) maxEntries tl) n mid ∧
      Reads (readItems n mid) items rest ∧ v = .array items := by
  rw [readValue]
  simp only [major]
  generalize readLength (b.toNat % 32) maxEntries tl = r
  rcases r with ⟨_ | n, left, bound⟩
  · simp [Reads, Read.fail]
  · rcases items : readItems n left with ⟨_ | items, left', bound'⟩
    · simp [Reads, Read.fail, items]
    · simp [Reads, Read.ok, items, eq_comm, and_comm]

theorem readValue_map_iff {b : UInt8} {tl rest : List UInt8} {v : Value} (major : b.toNat / 32 = 5) :
    Reads (readValue (b :: tl)) v rest ↔ ∃ n mid entries, Reads (readLength (b.toNat % 32) maxEntries tl) n mid ∧
      Reads (readEntries n none mid) entries rest ∧ v = .map entries := by
  rw [readValue]
  simp only [major]
  generalize readLength (b.toNat % 32) maxEntries tl = r
  rcases r with ⟨_ | n, left, bound⟩
  · simp [Reads, Read.fail]
  · rcases entries : readEntries n none left with ⟨_ | entries, left', bound'⟩
    · simp [Reads, Read.fail, entries]
    · simp [Reads, Read.ok, entries, eq_comm, and_comm]

theorem readValue_tagged {b : UInt8} {tl rest : List UInt8} {v : Value} (major : b.toNat / 32 = 6) :
    ¬Reads (readValue (b :: tl)) v rest := by
  rw [readValue]
  simp [major, Reads, Read.fail]

theorem readValue_simple_iff {b : UInt8} {tl rest : List UInt8} {v : Value} (major : 7 ≤ b.toNat / 32) :
    Reads (readValue (b :: tl)) v rest ↔ Reads (readSimple (b.toNat % 32) tl) v rest := by
  have notInt : ¬(b.toNat / 32 = 0 ∨ b.toNat / 32 = 1) := by omega
  rw [readValue]
  simp only [notInt, show b.toNat / 32 ≠ 2 by omega, show b.toNat / 32 ≠ 3 by omega,
    show b.toNat / 32 ≠ 4 by omega, show b.toNat / 32 ≠ 5 by omega, show b.toNat / 32 ≠ 6 by omega,
    if_false]
  simp [Reads, Read.widen]

theorem readValue_nil {v : Value} {rest : List UInt8} : ¬Reads (readValue []) v rest := by
  rw [readValue]
  simp [Reads, Read.stop]

theorem readItems_zero_iff {bs rest : List UInt8} {items : List Value} :
    Reads (readItems 0 bs) items rest ↔ items = [] ∧ rest = bs := by
  rw [readItems]
  simp [Reads, Read.here, eq_comm]

theorem readItems_succ_iff {n : Nat} {bs rest : List UInt8} {items : List Value} :
    Reads (readItems (n + 1) bs) items rest ↔
      ∃ v vs mid, Reads (readValue bs) v mid ∧ Reads (readItems n mid) vs rest ∧ items = v :: vs := by
  rw [readItems]
  rcases first : readValue bs with ⟨_ | v, mid, bound⟩
  · simp [Reads, Read.fail]
  · rcases others : readItems n mid with ⟨_ | vs, left, bound'⟩
    · simp [Reads, Read.fail, others]
    · simp [Reads, Read.ok, others, eq_comm, and_comm]

theorem readEntries_zero_iff {previous : Option (List UInt8)} {bs rest : List UInt8}
    {entries : List (Value × Value)} : Reads (readEntries 0 previous bs) entries rest ↔ entries = [] ∧ rest = bs := by
  rw [readEntries]
  simp [Reads, Read.here, eq_comm]

theorem readEntries_succ_iff {n : Nat} {previous : Option (List UInt8)} {bs rest : List UInt8}
    {entries : List (Value × Value)} :
    Reads (readEntries (n + 1) previous bs) entries rest ↔
      ∃ k v more mid mid', Reads (readValue bs) k mid ∧
        previous.all (fun p => keyStrictlyBefore p (bs.take (bs.length - mid.length))) = true ∧
        Reads (readValue mid) v mid' ∧ Reads (readEntries n (some (bs.take (bs.length - mid.length))) mid') more rest ∧
        entries = (k, v) :: more := by
  rw [readEntries]
  constructor
  · intro read
    rcases key : readValue bs with ⟨_ | k, mid, bound⟩
    · simp [Reads, Read.fail, key] at read
    rw [key] at read
    by_cases ordered : previous.all (fun p => keyStrictlyBefore p (bs.take (bs.length - mid.length))) = true
    · simp only [ordered, if_true] at read
      rcases value : readValue mid with ⟨_ | v, mid', bound'⟩
      · simp [Reads, Read.fail, value] at read
      rw [value] at read
      dsimp only at read
      rcases others : readEntries n (some (bs.take (bs.length - mid.length))) mid' with ⟨_ | more, left, bound''⟩
      · simp [Reads, Read.fail, others] at read
      rw [others] at read
      obtain ⟨stored, left'⟩ := read
      simp only [Read.ok, Except.ok.injEq] at stored left'
      subst stored left'
      refine ⟨k, v, more, mid, mid', ⟨rfl, rfl⟩, ordered, ?_, ?_, rfl⟩
      · rw [value]
        exact ⟨rfl, rfl⟩
      · rw [others]
        exact ⟨rfl, rfl⟩
    · simp [Reads, Read.fail, ordered] at read
  · rintro ⟨k, v, more, mid, mid', key, ordered, value, others, rfl⟩
    rw [key.eq_ok]
    simp only [ordered, if_true]
    rw [value.eq_ok]
    simp only
    rw [others.eq_ok]
    simp [Reads, Read.ok]

theorem byteArray_toList_loop (bs : ByteArray) (i : Nat) (r : List UInt8) :
    ByteArray.toList.loop bs i r = r.reverse ++ bs.data.toList.drop i := by
  fun_induction ByteArray.toList.loop bs i r with
  | case1 i r inside ih =>
    rw [ih, List.reverse_cons, List.append_assoc]
    congr 1
    have : i < bs.data.toList.length := by simpa using inside
    rw [List.drop_eq_getElem_cons this]
    simp [ByteArray.get!, inside]
  | case2 i r outside =>
    simp [List.drop_eq_nil_of_le (by simpa using Nat.le_of_not_lt outside : bs.data.toList.length ≤ i)]

theorem byteArray_toList (bs : ByteArray) : bs.toList = bs.data.toList := by
  simp [ByteArray.toList, byteArray_toList_loop]

/-- Major type 7 holds false, true, null and eight-byte doubles other than NaN. -/
theorem readSimple_iff {info : Nat} {bs rest : List UInt8} {v : Value} :
    Reads (readSimple info bs) v rest ↔
      rest = bs ∧ (info = 20 ∧ v = .bool false ∨ info = 21 ∧ v = .bool true ∨ info = 22 ∧ v = .null) ∨
      info = 27 ∧ ∃ raw, bs = raw ++ rest ∧ raw.length = 8 ∧
        Double.isNaN ⟨(ofBigEndian raw).toUInt64⟩ = false ∧ v = .float ⟨(ofBigEndian raw).toUInt64⟩ := by
  unfold readSimple
  split_ifs with isFalse isTrue isNull short isDouble
  · subst isFalse
    simp only [Reads, Read.here, Except.ok.injEq]
    constructor
    · rintro ⟨rfl, rfl⟩
      simp
    · rintro (⟨rfl, -, rfl⟩ | ⟨stray, -⟩) <;> simp_all
  · subst isTrue
    simp only [Reads, Read.here, Except.ok.injEq]
    constructor
    · rintro ⟨rfl, rfl⟩
      simp
    · rintro (⟨rfl, ⟨stray, -⟩ | ⟨-, rfl⟩ | ⟨stray, -⟩⟩ | ⟨stray, -⟩) <;> simp_all
  · subst isNull
    simp only [Reads, Read.here, Except.ok.injEq]
    constructor
    · rintro ⟨rfl, rfl⟩
      simp
    · rintro (⟨rfl, ⟨stray, -⟩ | ⟨stray, -⟩ | ⟨-, rfl⟩⟩ | ⟨stray, -⟩) <;> simp_all
  · simp only [Reads, Read.stop, reduceCtorEq, false_and, false_iff]
    omega
  · subst isDouble
    constructor
    · intro read
      rcases taken : takeBytes 8 bs with ⟨_ | raw, left, bound⟩
      · simp [Reads, Read.fail, taken] at read
      rw [taken] at read
      have split := takeBytes_reads (⟨by rw [taken], by rw [taken]⟩ : Reads (takeBytes 8 bs) raw left)
      by_cases nan : Double.isNaN ⟨(ofBigEndian raw).toUInt64⟩ = true
      · simp [Reads, Read.fail, nan] at read
      · obtain ⟨value, left'⟩ := read
        simp only [nan, Bool.false_eq_true, if_false, Read.ok, Except.ok.injEq] at value left'
        subst value left'
        exact Or.inr ⟨rfl, raw, split.1, split.2, by simpa using nan, rfl⟩
    · rintro (⟨_, stored⟩ | ⟨-, raw, rfl, length, notNaN, rfl⟩)
      · omega
      · rw [takeBytes_append rest length.symm]
        simp [Reads, Read.ok, notNaN]
  · simp only [Reads, Read.stop, reduceCtorEq, false_and, false_iff]
    omega
  · simp only [Reads, Read.stop, reduceCtorEq, false_and, false_iff]
    omega

theorem readString_iff {info : Nat} {bs rest raw : List UInt8} :
    Reads (readString info bs) raw rest ↔
      Reads (readLength info maxStringLength bs) raw.length (raw ++ rest) := by
  unfold readString
  rcases length : readLength info maxStringLength bs with ⟨_ | n, mid, bound⟩
  · simp [Reads, Read.fail]
  · constructor
    · intro read
      have split := takeBytes_reads (⟨read.1, read.2⟩ : Reads (takeBytes n mid) raw rest)
      simp [Reads, split.1, split.2]
    · rintro ⟨counted, left⟩
      simp only [Except.ok.injEq] at counted left
      subst counted left
      simp only [Read.widen]
      rw [takeBytes_append rest rfl]
      exact ⟨rfl, rfl⟩

/-- The bytes of a text are those of its UTF-8 encoding. -/
theorem textOfUtf8_eq_ok {raw : List UInt8} {s : String} : textOfUtf8 raw = .ok s ↔ raw = s.toUTF8.toList := by
  rw [byteArray_toList]
  unfold textOfUtf8 String.fromUTF8?
  constructor
  · intro decoded
    split at decoded
    · rename_i t found
      split at found
      · rename_i valid
        simp only [Option.some.injEq] at found
        simp only [Except.ok.injEq] at decoded
        subst found decoded
        simp [String.fromUTF8]
      · simp at found
    · simp at decoded
  · rintro rfl
    have whole : ByteArray.mk s.toUTF8.data.toList.toArray = s.toByteArray := by simp
    rw [whole]
    simp [String.fromUTF8, s.isValidUTF8]

theorem decode_eq_ok {bs : List UInt8} {v : Value} : decode bs = .ok v ↔ Reads (readValue bs) v [] := by
  unfold decode decodeNext
  rcases read : readValue bs with ⟨_ | w, left, bound⟩
  · simp [Reads]
  · cases left <;> simp [Reads, eq_comm]

theorem decodeStream_nil : decodeStream [] = ([], none, []) := by
  rw [decodeStream]
  rfl

theorem decodeStream_of_reads {bs rest : List UInt8} {v : Value} (read : Reads (readValue bs) v rest)
    (shorter : rest.length < bs.length) :
    decodeStream bs = (v :: (decodeStream rest).1, (decodeStream rest).2) := by
  have nonempty : bs.isEmpty = false := by
    cases bs
    · simp at shorter
    · rfl
  rw [decodeStream, nonempty]
  simp only [Bool.false_eq_true, if_false]
  rw [read.eq_ok]
  simp only [shorter, if_true]

end GameVault.Cbor
