import Mathlib
import GameVault.Proofs.Cbor.Reader
import GameVault.Proofs.Cbor.Writer

namespace GameVault

namespace Value

mutual
/-- The document with every map's pairs ordered by the encodings of their keys and every double passed
through `f`. -/
def reorder (f : Double → Double) : Value → Value
  | .float x => .float (f x)
  | .array items => .array (reorderItems f items)
  | .map entries => .map (Cbor.sortByEncodedKey (reorderEntries f entries))
  | v => v

/-- `reorder` on each element. -/
def reorderItems (f : Double → Double) : List Value → List Value
  | [] => []
  | x :: xs => reorder f x :: reorderItems f xs

/-- `reorder` on each key and value. -/
def reorderEntries (f : Double → Double) : List (Value × Value) → List (Value × Value)
  | [] => []
  | (k, v) :: rest => (reorder f k, reorder f v) :: reorderEntries f rest
end

/-- The normal form of a document: the pairs of every map ordered by the encodings of their keys, shorter
encodings first and then bytewise, and nothing else changed. -/
def normalize (v : Value) : Value := reorder id v

theorem reorderItems_eq (f : Double → Double) (items : List Value) :
    reorderItems f items = items.map (reorder f) := by
  induction items with
  | nil => rfl
  | cons x xs ih => simp [reorderItems, ih]

theorem reorderEntries_eq (f : Double → Double) (entries : List (Value × Value)) :
    reorderEntries f entries = entries.map fun p => (reorder f p.1, reorder f p.2) := by
  induction entries with
  | nil => rfl
  | cons p rest ih =>
    obtain ⟨k, v⟩ := p
    simp [reorderEntries, ih]

@[simp] theorem reorder_array (f : Double → Double) (items : List Value) :
    reorder f (.array items) = .array (items.map (reorder f)) := by
  rw [reorder, reorderItems_eq]

@[simp] theorem reorder_map (f : Double → Double) (entries : List (Value × Value)) :
    reorder f (.map entries) = .map (Cbor.sortByEncodedKey (entries.map fun p => (reorder f p.1, reorder f p.2))) := by
  rw [reorder, reorderEntries_eq]

/-- The sizes the reader accepts at the top level: byte and text strings of at most `2 ^ 28` bytes, arrays
and maps of at most `2 ^ 24` entries. -/
def withinLimitsHere : Value → Bool
  | .bytes bs => decide (bs.length ≤ Cbor.maxStringLength)
  | .text s => decide (s.utf8ByteSize ≤ Cbor.maxStringLength)
  | .array items => decide (items.length ≤ Cbor.maxEntries)
  | .map entries => decide (entries.length ≤ Cbor.maxEntries)
  | _ => true

/-- A document whose strings and containers, at every depth, are within the sizes the reader accepts. -/
def WithinLimits (v : Value) : Prop := v.every withinLimitsHere = true

instance : DecidablePred WithinLimits := fun v => inferInstanceAs (Decidable (v.every withinLimitsHere = true))

theorem withinLimits_array {items : List Value} :
    (Value.array items).WithinLimits ↔ items.length ≤ Cbor.maxEntries ∧ ∀ x ∈ items, x.WithinLimits := by
  simp [WithinLimits, every_array, withinLimitsHere]

theorem withinLimits_map {entries : List (Value × Value)} :
    (Value.map entries).WithinLimits ↔
      entries.length ≤ Cbor.maxEntries ∧ ∀ p ∈ entries, p.1.WithinLimits ∧ p.2.WithinLimits := by
  simp [WithinLimits, every_map, withinLimitsHere]

end Value

namespace Cbor

open Value

/-- A change of doubles that the writer does not see: it keeps NaN out and the written bits. -/
structure Unseen (f : Double → Double) : Prop where
  notNaN : ∀ x : Double, x.isNaN = false → (f x).isNaN = false
  canonical : ∀ x : Double, x.isNaN = false → (f x).canonical = x.canonical

theorem unseen_id : Unseen id := ⟨fun _ h => h, fun _ _ => rfl⟩

/-- The two zeros are the patterns with no bit set but the sign. -/
theorem isZero_iff (x : Double) : x.isZero = true ↔ x.bits = 0 ∨ x.bits = Double.signMask := by
  obtain ⟨bits⟩ := x
  have mask : (~~~Double.signMask).toNat = 2 ^ 63 - 1 := by decide
  simp only [Double.isZero, beq_iff_eq]
  constructor
  · intro low
    have := congrArg UInt64.toNat low
    rw [UInt64.toNat_and, mask, Nat.and_two_pow_sub_one_eq_mod, UInt64.toNat_zero] at this
    have range := bits.toNat_lt
    have cases : bits.toNat = 0 ∨ bits.toNat = 2 ^ 63 := by omega
    rcases cases with zero | top
    · left; exact UInt64.toNat_inj.mp (by simpa using zero)
    · right; exact UInt64.toNat_inj.mp (by simpa [Double.signMask] using top)
  · rintro (rfl | rfl) <;> decide

theorem canonical_isNaN (x : Double) : x.canonical.isNaN = x.isNaN := by
  unfold Double.canonical
  split_ifs with zero
  · obtain ⟨bits⟩ := x
    rcases (isZero_iff _).mp zero with rfl | rfl <;> decide
  · rfl

theorem canonical_canonical (x : Double) : x.canonical.canonical = x.canonical := by
  unfold Double.canonical
  split_ifs with zero zero'
  · rfl
  · exact absurd (by decide) zero'
  · rfl

theorem unseen_canonical : Unseen Double.canonical :=
  ⟨fun x h => by rw [canonical_isNaN, h], fun x _ => canonical_canonical x⟩

theorem sortByEncodedKey_sorted (entries : List (Value × Value)) :
    (sortByEncodedKey entries).Pairwise fun a b => keyBefore (write a.1).1 (write b.1).1 = true :=
  List.pairwise_mergeSort (fun a b c => keyBefore_trans (write a.1).1 (write b.1).1 (write c.1).1)
    (fun a b => keyBefore_total (write a.1).1 (write b.1).1) entries

theorem sortByEncodedKey_of_sorted {entries : List (Value × Value)}
    (sorted : entries.Pairwise fun a b => keyBefore (write a.1).1 (write b.1).1 = true) :
    sortByEncodedKey entries = entries :=
  List.mergeSort_of_pairwise sorted

/-- Changing the pairs without changing the encodings of their keys commutes with sorting them. -/
theorem sortByEncodedKey_map {entries : List (Value × Value)} (g : Value × Value → Value × Value)
    (sameKey : ∀ p ∈ entries, write (g p).1 = write p.1) :
    sortByEncodedKey (entries.map g) = (sortByEncodedKey entries).map g := by
  unfold sortByEncodedKey
  rw [List.map_mergeSort]
  intro a memberA b memberB
  simp only [sameKey a memberA, sameKey b memberB]

section Reorder

variable {f : Double → Double}

theorem reorder_encodable_and_write (unseen : Unseen f) (v : Value) (encodable : v.Encodable) :
    (reorder f v).Encodable ∧ write (reorder f v) = write v := by
  induction v with
  | float x =>
    have notNaN : x.isNaN = false := by simpa [Value.Encodable, Value.every, Value.writableHere] using encodable
    refine ⟨by simp [reorder, Value.Encodable, Value.every, Value.writableHere, unseen.notNaN x notNaN], ?_⟩
    simp [reorder, write, unseen.notNaN x notNaN, notNaN, unseen.canonical x notNaN]
  | array items ih =>
    have inner := encodable_array.mp encodable
    have each x (member : x ∈ items) := ih x member (inner x member)
    have ok : ∀ x ∈ items.map (reorder f), (write x).2 = none := by
      intro y member
      obtain ⟨x, original, rfl⟩ := List.mem_map.mp member
      rw [(each x original).2, write_ok_iff]
      exact inner x original
    have same : (items.map (reorder f)).flatMap (fun x => (write x).1) = items.flatMap fun x => (write x).1 := by
      rw [List.flatMap_map]
      exact List.flatMap_congr fun x member => by rw [(each x member).2]
    refine ⟨?_, ?_⟩
    · rw [reorder_array, encodable_array]
      intro y member
      obtain ⟨x, original, rfl⟩ := List.mem_map.mp member
      exact (each x original).1
    · rw [reorder_array, write, write, writeItems_of_ok ok,
        writeItems_of_ok fun x member => (write_ok_iff x).mpr (inner x member), same, List.length_map]
  | map entries ih =>
    obtain ⟨distinct, inner⟩ := encodable_map.mp encodable
    have each p (member : p ∈ entries) := And.intro (ih p member).1 (ih p member).2
    have keyWrite p (member : p ∈ entries) : write (reorder f p.1) = write p.1 :=
      ((each p member).1 (inner p member).1).2
    have valueWrite p (member : p ∈ entries) : write (reorder f p.2) = write p.2 :=
      ((each p member).2 (inner p member).2).2
    have sorted := sortByEncodedKey_map (fun p => (reorder f p.1, reorder f p.2)) keyWrite
    have perm : (sortByEncodedKey entries).Perm entries := List.mergeSort_perm _ _
    have newEncodable : (Value.map ((sortByEncodedKey entries).map fun p => (reorder f p.1, reorder f p.2))).Encodable := by
      refine encodable_map.mpr ⟨?_, ?_⟩
      · rw [List.map_map]
        have same : ((sortByEncodedKey entries).map ((fun e => (write e.1).1) ∘ fun p => (reorder f p.1, reorder f p.2))) =
            (sortByEncodedKey entries).map fun e => (write e.1).1 :=
          List.map_congr_left fun p member => by simp [keyWrite p (perm.mem_iff.mp member)]
        rw [same]
        exact (perm.map _).nodup_iff.mpr distinct
      · intro e member
        obtain ⟨p, original, rfl⟩ := List.mem_map.mp member
        have original := perm.mem_iff.mp original
        exact ⟨((each p original).1 (inner p original).1).1, ((each p original).2 (inner p original).2).1⟩
    refine ⟨?_, ?_⟩
    · rw [reorder_map, sorted]
      exact newEncodable
    · have resorted : sortByEncodedKey ((sortByEncodedKey entries).map fun p => (reorder f p.1, reorder f p.2)) =
          (sortByEncodedKey entries).map fun p => (reorder f p.1, reorder f p.2) := by
        refine sortByEncodedKey_of_sorted (List.pairwise_map.mpr ?_)
        refine (sortByEncodedKey_sorted entries).imp_of_mem fun {a b} memberA memberB before => ?_
        rw [keyWrite a (perm.mem_iff.mp memberA), keyWrite b (perm.mem_iff.mp memberB)]
        exact before
      rw [reorder_map, sorted, write_map_of_encodable newEncodable, write_map_of_encodable encodable,
        resorted, List.length_map, perm.length_eq, List.flatMap_map]
      congr 2
      exact List.flatMap_congr fun p member => by
        simp [keyWrite p (perm.mem_iff.mp member), valueWrite p (perm.mem_iff.mp member)]
  | _ => exact ⟨encodable, rfl⟩

theorem beq_reorder_self_items {g : Double → Double} {items : List Value}
    (each : ∀ x ∈ items, beq (reorder f x) (reorder g x) = true) :
    beqItems (items.map (reorder f)) (items.map (reorder g)) = true := by
  induction items with
  | nil => rfl
  | cons x xs ih =>
    simp only [List.map_cons, beqItems, each x (by simp), Bool.true_and]
    exact ih fun y member => each y (by simp [member])

theorem beq_reorder_self_entries {g : Double → Double} {entries : List (Value × Value)}
    (each : ∀ p ∈ entries, beq (reorder f p.1) (reorder g p.1) = true ∧ beq (reorder f p.2) (reorder g p.2) = true) :
    beqEntries (entries.map fun p => (reorder f p.1, reorder f p.2))
      (entries.map fun p => (reorder g p.1, reorder g p.2)) = true := by
  induction entries with
  | nil => rfl
  | cons p ps ih =>
    simp only [List.map_cons, beqEntries, (each p (by simp)).1, (each p (by simp)).2, Bool.true_and]
    exact ih fun q member => each q (by simp [member])

/-- Two reorderings whose doubles compare equal give equal documents. -/
theorem beq_reorder {g : Double → Double} (unseenF : Unseen f) (unseenG : Unseen g)
    (close : ∀ x, x.isNaN = false → (f x).ieeeEq (g x) = true) (v : Value) (encodable : v.Encodable) :
    beq (reorder f v) (reorder g v) = true := by
  induction v with
  | null => rfl
  | bool b => simp [reorder, beq]
  | int n => simp [reorder, beq]
  | float x =>
    exact close x (by simpa [Value.Encodable, Value.every, Value.writableHere] using encodable)
  | bytes bs => simp [reorder, beq]
  | text s => simp [reorder, beq]
  | array items ih =>
    have inner := encodable_array.mp encodable
    rw [reorder_array, reorder_array, beq]
    exact beq_reorder_self_items fun x member => ih x member (inner x member)
  | map entries ih =>
    obtain ⟨-, inner⟩ := encodable_map.mp encodable
    have keyWrite {h : Double → Double} (unseen : Unseen h) p (member : p ∈ entries) :
        write (reorder h p.1) = write p.1 :=
      (reorder_encodable_and_write unseen p.1 (inner p member).1).2
    rw [reorder_map, reorder_map, sortByEncodedKey_map _ (keyWrite unseenF),
      sortByEncodedKey_map _ (keyWrite unseenG), beq]
    have perm : (sortByEncodedKey entries).Perm entries := List.mergeSort_perm _ _
    refine beq_reorder_self_entries fun p member => ?_
    have member := perm.mem_iff.mp member
    exact ⟨(ih p member).1 (inner p member).1, (ih p member).2 (inner p member).2⟩

end Reorder

theorem ieeeEq_canonical {x : Double} (notNaN : x.isNaN = false) : x.canonical.ieeeEq x = true := by
  unfold Double.canonical Double.ieeeEq
  split_ifs with zero
  · have zeroNotNaN : Double.zero.isNaN = false := by decide
    have zeroIsZero : Double.zero.isZero = true := by decide
    simp [notNaN, zero, zeroNotNaN, zeroIsZero]
  · simp [notNaN]

theorem headInfo_lt (n : Nat) : headInfo n < 32 := by
  unfold headInfo
  split_ifs <;> omega

theorem head_append (major n : Nat) (rest : List UInt8) :
    head major n ++ rest = (major * 32 + headInfo n).toUInt8 :: (bigEndian (argumentWidth n) n ++ rest) := by
  rw [head_eq, List.cons_append]

theorem readLength_head {n limit : Nat} (fits : n ≤ limit) (small : limit < 2 ^ 64) (rest : List UInt8) :
    Reads (readLength (headInfo n) limit (bigEndian (argumentWidth n) n ++ rest)) n rest :=
  readLength_reads_iff.mpr ⟨readArgument_head (by omega) rest, fits⟩

theorem readItems_write (items : List Value) (g : Value → Value)
    (each : ∀ x ∈ items, ∀ rest, Reads (readValue ((write x).1 ++ rest)) (g x) rest) (rest : List UInt8) :
    Reads (readItems items.length ((items.flatMap fun x => (write x).1) ++ rest)) (items.map g) rest := by
  induction items with
  | nil => exact readItems_zero_iff.mpr ⟨rfl, rfl⟩
  | cons x xs ih =>
    rw [List.length_cons, List.flatMap_cons, List.append_assoc]
    exact readItems_succ_iff.mpr ⟨g x, xs.map g, _, each x (by simp) _,
      ih (fun y member => each y (by simp [member])), rfl⟩

/-- Pairs written in strictly increasing order of their encoded keys read back one by one, each key
passing the reader's order check against the key before it. -/
theorem readEntries_write (pairs : List (Value × Value)) (g : Value × Value → Value × Value)
    (each : ∀ p ∈ pairs, ∀ rest, Reads (readValue ((write p.1).1 ++ rest)) (g p).1 rest ∧
      Reads (readValue ((write p.2).1 ++ rest)) (g p).2 rest)
    (strict : pairs.Pairwise fun a b => keyStrictlyBefore (write a.1).1 (write b.1).1 = true)
    (previous : Option (List UInt8))
    (after : ∀ p ∈ pairs, previous.all (fun q => keyStrictlyBefore q (write p.1).1) = true) (rest : List UInt8) :
    Reads (readEntries pairs.length previous ((pairs.flatMap fun p => (write p.1).1 ++ (write p.2).1) ++ rest))
      (pairs.map g) rest := by
  induction pairs generalizing previous with
  | nil => exact readEntries_zero_iff.mpr ⟨rfl, rfl⟩
  | cons p ps ih =>
    have key := (each p (by simp) ((write p.2).1 ++ ((ps.flatMap fun p => (write p.1).1 ++ (write p.2).1) ++ rest))).1
    have value := (each p (by simp) ((ps.flatMap fun p => (write p.1).1 ++ (write p.2).1) ++ rest)).2
    have keyBytes : ((write p.1).1 ++ ((write p.2).1 ++ ((ps.flatMap fun p => (write p.1).1 ++ (write p.2).1) ++ rest))).take
        (((write p.1).1 ++ ((write p.2).1 ++ ((ps.flatMap fun p => (write p.1).1 ++ (write p.2).1) ++ rest))).length -
          ((write p.2).1 ++ ((ps.flatMap fun p => (write p.1).1 ++ (write p.2).1) ++ rest)).length) = (write p.1).1 := by
      simp
    have others := ih (fun q member => each q (by simp [member])) (List.pairwise_cons.mp strict).2 (some (write p.1).1)
      (fun q member => by simpa using (List.pairwise_cons.mp strict).1 q member)
    rw [List.length_cons, List.flatMap_cons, List.append_assoc, List.append_assoc]
    refine readEntries_succ_iff.mpr ⟨(g p).1, (g p).2, ps.map g, _, _, key, ?_, value, ?_, rfl⟩
    · rw [keyBytes]
      exact after p (by simp)
    · rw [keyBytes]
      exact others

theorem intArgument_le (n : Int64) : intArgument n ≤ maxIntArgument := by
  have upper := Int64.toInt_lt n
  have lower := Int64.le_toInt n
  unfold intArgument maxIntArgument
  split_ifs <;> omega

theorem readValue_write_int (n : Int64) (rest : List UInt8) :
    Reads (readValue ((write (.int n)).1 ++ rest)) (.int n) rest := by
  have fits : intArgument n < 2 ^ 64 := by
    have := intArgument_le n
    unfold maxIntArgument at this
    omega
  by_cases sign : 0 ≤ n.toInt
  · rw [write]
    dsimp only
    rw [if_pos sign, head_append]
    refine (readValue_int_iff (Or.inl (firstByte_major (by decide) (headInfo_lt _)))).mpr
      ⟨intArgument n, ?_, intArgument_le n, ?_⟩
    · rw [firstByte_info (headInfo_lt _)]
      exact readArgument_head fits rest
    · rw [firstByte_major (by decide) (headInfo_lt _), if_pos rfl]
      unfold intArgument
      rw [if_pos sign, Int.toNat_of_nonneg sign, Int64.ofInt_toInt]
  · rw [write]
    dsimp only
    rw [if_neg sign, head_append]
    refine (readValue_int_iff (Or.inr (firstByte_major (by decide) (headInfo_lt _)))).mpr
      ⟨intArgument n, ?_, intArgument_le n, ?_⟩
    · rw [firstByte_info (headInfo_lt _)]
      exact readArgument_head fits rest
    · rw [firstByte_major (by decide) (headInfo_lt _), if_neg one_ne_zero]
      unfold intArgument
      rw [if_neg sign, Int.toNat_of_nonneg (by omega), show -1 - (-1 - n.toInt) = n.toInt by omega,
        Int64.ofInt_toInt]

theorem readValue_write_float {x : Double} (notNaN : x.isNaN = false) (rest : List UInt8) :
    Reads (readValue ((write (.float x)).1 ++ rest)) (.float x.canonical) rest := by
  have bits : (ofBigEndian (bigEndian 8 x.canonical.bits.toNat)).toUInt64 = x.canonical.bits := by
    rw [ofBigEndian_bigEndian, Nat.mod_eq_of_lt (by simpa using x.canonical.bits.toNat_lt)]
    simp
  rw [write, if_neg (by simp [notNaN])]
  dsimp only
  rw [List.cons_append]
  refine (readValue_simple_iff (show 7 ≤ (0xFB : UInt8).toNat / 32 by decide)).mpr (readSimple_iff.mpr (Or.inr ⟨by decide, _, rfl, by simp, ?_, ?_⟩))
  · rw [bits, canonical_isNaN, notNaN]
  · rw [bits]

theorem readValue_write_bytes {bs : List UInt8} (within : bs.length ≤ maxStringLength) (rest : List UInt8) :
    Reads (readValue ((write (.bytes bs)).1 ++ rest)) (.bytes bs) rest := by
  rw [write]
  dsimp only
  rw [List.append_assoc, head_append]
  refine (readValue_bytes_iff (firstByte_major (by decide) (headInfo_lt _))).mpr ⟨bs, ?_, rfl⟩
  rw [readString_iff, firstByte_info (headInfo_lt _)]
  exact readLength_head within (by decide) (bs ++ rest)

theorem utf8ByteSize_eq_length (s : String) : s.utf8ByteSize = s.toUTF8.toList.length := by
  rw [byteArray_toList]
  simp

theorem readValue_write_text {s : String} (within : s.utf8ByteSize ≤ maxStringLength) (rest : List UInt8) :
    Reads (readValue ((write (.text s)).1 ++ rest)) (.text s) rest := by
  rw [write]
  dsimp only
  rw [List.append_assoc, head_append]
  refine (readValue_text_iff (firstByte_major (by decide) (headInfo_lt _))).mpr
    ⟨s.toUTF8.toList, s, ?_, textOfUtf8_eq_ok.mpr rfl, rfl⟩
  rw [readString_iff, firstByte_info (headInfo_lt _), ← utf8ByteSize_eq_length]
  exact readLength_head within (by decide) (s.toUTF8.toList ++ rest)

/-- Reading back the encoding of a document, whatever follows it, gives the document with the pairs of
every map in key order and every double canonical. -/
theorem readValue_write {v : Value} (encodable : v.Encodable) (within : v.WithinLimits) (rest : List UInt8) :
    Reads (readValue ((write v).1 ++ rest)) (reorder Double.canonical v) rest := by
  induction v generalizing rest with
  | null => exact (readValue_simple_iff (show 7 ≤ (0xF6 : UInt8).toNat / 32 by decide)).mpr (readSimple_iff.mpr (Or.inl ⟨rfl, by simp [reorder]⟩))
  | bool b =>
    cases b
    · exact (readValue_simple_iff (show 7 ≤ (0xF4 : UInt8).toNat / 32 by decide)).mpr (readSimple_iff.mpr (Or.inl ⟨rfl, by simp [reorder]⟩))
    · exact (readValue_simple_iff (show 7 ≤ (0xF5 : UInt8).toNat / 32 by decide)).mpr (readSimple_iff.mpr (Or.inl ⟨rfl, by simp [reorder]⟩))
  | int n => exact readValue_write_int n rest
  | float x =>
    exact readValue_write_float (by simpa [Value.Encodable, Value.every, Value.writableHere] using encodable) rest
  | bytes bs =>
    exact readValue_write_bytes (by simpa [Value.WithinLimits, Value.every, Value.withinLimitsHere] using within) rest
  | text s =>
    exact readValue_write_text (by simpa [Value.WithinLimits, Value.every, Value.withinLimitsHere] using within) rest
  | array items ih =>
    have inner := encodable_array.mp encodable
    obtain ⟨short, innerWithin⟩ := withinLimits_array.mp within
    rw [write, andThen_ok, writeItems_of_ok fun x member => (write_ok_iff x).mpr (inner x member)]
    dsimp only
    rw [List.append_assoc, head_append, reorder_array]
    refine (readValue_array_iff (firstByte_major (by decide) (headInfo_lt _))).mpr ⟨items.length, _, _, ?_,
      readItems_write items _ (fun x member => ih x member (inner x member) (innerWithin x member)) rest, rfl⟩
    rw [firstByte_info (headInfo_lt _)]
    exact readLength_head short (by decide) _
  | map entries ih =>
    obtain ⟨distinct, inner⟩ := encodable_map.mp encodable
    obtain ⟨short, innerWithin⟩ := withinLimits_map.mp within
    have perm : (sortByEncodedKey entries).Perm entries := List.mergeSort_perm _ _
    have keyWrite p (member : p ∈ entries) : write (reorder Double.canonical p.1) = write p.1 :=
      (reorder_encodable_and_write unseen_canonical p.1 (inner p member).1).2
    have each : ∀ p ∈ sortByEncodedKey entries, ∀ rest,
        Reads (readValue ((write p.1).1 ++ rest)) (reorder Double.canonical p.1) rest ∧
        Reads (readValue ((write p.2).1 ++ rest)) (reorder Double.canonical p.2) rest := by
      intro p member rest
      have member := perm.mem_iff.mp member
      exact ⟨(ih p member).1 (inner p member).1 (innerWithin p member).1 rest,
        (ih p member).2 (inner p member).2 (innerWithin p member).2 rest⟩
    rw [write_map_of_encodable encodable, List.append_assoc, head_append, reorder_map,
      sortByEncodedKey_map _ keyWrite]
    refine (readValue_map_iff (firstByte_major (by decide) (headInfo_lt _))).mpr ⟨entries.length,
      (sortByEncodedKey entries).flatMap (fun p => (write p.1).1 ++ (write p.2).1) ++ rest, _, ?_, ?_, rfl⟩
    · rw [firstByte_info (headInfo_lt _)]
      exact readLength_head short (by decide) _
    · rw [← perm.length_eq]
      exact readEntries_write _ _ each (sortByEncodedKey_strict encodable) none (fun _ _ => rfl) rest

theorem write_ne_nil {v : Value} (encodable : v.Encodable) : (write v).1 ≠ [] := by
  cases v with
  | float x =>
    have notNaN : x.isNaN = false := by simpa [Value.Encodable, Value.every, Value.writableHere] using encodable
    simp [write, notNaN]
  | array items =>
    rw [write, andThen_ok, head_eq]
    simp
  | map entries =>
    rw [write_map_of_encodable encodable, head_eq]
    simp
  | bool b => cases b <;> simp [write]
  | _ => simp [write, head_eq]

theorem writeAll_of_encodable {values : List Value} (encodable : ∀ v ∈ values, v.Encodable) :
    writeAll values = (values.flatMap fun v => (write v).1, values.length, none) := by
  induction values with
  | nil => rfl
  | cons v vs ih =>
    have ok : write v = ((write v).1, none) := Prod.ext rfl ((write_ok_iff v).mpr (encodable v (by simp)))
    rw [writeAll, ok]
    dsimp only
    rw [ih fun w member => encodable w (by simp [member])]
    simp

theorem decodeStream_writes {values : List Value} (encodable : ∀ v ∈ values, v.Encodable)
    (within : ∀ v ∈ values, v.WithinLimits) :
    decodeStream (values.flatMap fun v => (write v).1) = (values.map (reorder Double.canonical), none, []) := by
  induction values with
  | nil => exact decodeStream_nil
  | cons v vs ih =>
    have read := readValue_write (encodable v (by simp)) (within v (by simp)) (vs.flatMap fun v => (write v).1)
    have shorter : (vs.flatMap fun v => (write v).1).length < ((write v).1 ++ vs.flatMap fun v => (write v).1).length := by
      have := List.length_pos_iff.mpr (write_ne_nil (encodable v (by simp)))
      simp only [List.length_append]
      omega
    rw [List.flatMap_cons, decodeStream_of_reads read shorter,
      ih (fun w member => encodable w (by simp [member])) (fun w member => within w (by simp [member]))]
    rfl

theorem reorder_canonical_beq_normalize {v : Value} (encodable : v.Encodable) :
    (reorder Double.canonical v == normalize v) = true :=
  beq_reorder unseen_canonical unseen_id (fun _ notNaN => ieeeEq_canonical notNaN) v encodable

theorem encode_of_encodable {v : Value} (encodable : v.Encodable) : encode v = .ok (write v).1 := by
  have ok : write v = ((write v).1, none) := Prod.ext rfl ((write_ok_iff v).mpr encodable)
  unfold encode
  rw [ok]

theorem decode_write {v : Value} (encodable : v.Encodable) (within : v.WithinLimits) :
    decode (write v).1 = .ok (reorder Double.canonical v) := by
  have read := readValue_write encodable within []
  rw [List.append_nil] at read
  exact decode_eq_ok.mpr read

/-- Encoding documents with no NaN, no two keys of a map encoded alike and sizes the reader accepts
never fails, and reading the bytes back gives, value by value, documents equal to their normal forms
and nothing left over; in particular decoding the encoding of one such document gives its normal form. -/
theorem encode_decode_round_trip (values : List Value) (encodable : ∀ v ∈ values, v.Encodable)
    (within : ∀ v ∈ values, v.WithinLimits) :
    (∃ bytes ws, writeAll values = (bytes, values.length, none) ∧ decodeStream bytes = (ws, none, []) ∧
      List.Forall₂ (fun w v => (w == normalize v) = true) ws values) ∧
    ∀ v ∈ values, ∃ bytes w, encode v = .ok bytes ∧ decode bytes = .ok w ∧ (w == normalize v) = true := by
  refine ⟨⟨_, _, writeAll_of_encodable encodable, decodeStream_writes encodable within, ?_⟩, ?_⟩
  · rw [List.forall₂_map_left_iff, List.forall₂_same]
    exact fun v member => reorder_canonical_beq_normalize (encodable v member)
  · intro v member
    exact ⟨_, _, encode_of_encodable (encodable v member), decode_write (encodable v member) (within v member),
      reorder_canonical_beq_normalize (encodable v member)⟩

theorem encode_decode_round_trip_two_documents :
    let values := [Value.map [(.int 1, .null), (.int 0, .bool true)], .array [.float ⟨0x8000000000000000⟩]]
    (∀ v ∈ values, v.Encodable) ∧ (∀ v ∈ values, v.WithinLimits) ∧
      ((∃ bytes ws, writeAll values = (bytes, values.length, none) ∧ decodeStream bytes = (ws, none, []) ∧
        List.Forall₂ (fun w v => (w == normalize v) = true) ws values) ∧
      ∀ v ∈ values, ∃ bytes w, encode v = .ok bytes ∧ decode bytes = .ok w ∧ (w == normalize v) = true) := by
  intro values
  have encodable : ∀ v ∈ values, v.Encodable := by decide
  have within : ∀ v ∈ values, v.WithinLimits := by decide
  exact ⟨encodable, within, encode_decode_round_trip values encodable within⟩

end Cbor

end GameVault
