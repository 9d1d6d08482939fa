import Mathlib
import GameVault.Proofs.Cbor.Canonical

namespace GameVault

namespace Value

/-- Sizes a head can carry: strings of fewer than `2 ^ 64` bytes, arrays and maps of fewer than
`2 ^ 64` entries. -/
def addressableHere : Value → Bool
  | .bytes bs => decide (bs.length < 2 ^ 64)
  | .text s => decide (s.utf8ByteSize < 2 ^ 64)
  | .array items => decide (items.length < 2 ^ 64)
  | .map entries => decide (entries.length < 2 ^ 64)
  | _ => true

/-- A document whose strings and containers, at every depth, have sizes a head can carry. -/
def Addressable (v : Value) : Prop := v.every addressableHere = true

instance : DecidablePred Addressable := fun v => inferInstanceAs (Decidable (v.every addressableHere = true))

theorem addressable_bytes {bs : List UInt8} : (Value.bytes bs).Addressable ↔ bs.length < 2 ^ 64 := by
  simp [Addressable, every, addressableHere]

theorem addressable_text {s : String} : (Value.text s).Addressable ↔ s.utf8ByteSize < 2 ^ 64 := by
  simp [Addressable, every, addressableHere]

theorem addressable_array {items : List Value} :
    (Value.array items).Addressable ↔ items.length < 2 ^ 64 ∧ ∀ x ∈ items, x.Addressable := by
  simp [Addressable, every_array, addressableHere]

theorem addressable_map {entries : List (Value × Value)} :
    (Value.map entries).Addressable ↔
      entries.length < 2 ^ 64 ∧ ∀ p ∈ entries, p.1.Addressable ∧ p.2.Addressable := by
  simp [Addressable, every_map, addressableHere]

theorem withinLimits_of_scalar {v : Value} (major : v.majorType = 0 ∨ v.majorType = 1 ∨ v.majorType = 7) :
    v.WithinLimits := by
  cases v <;> simp_all [majorType, WithinLimits, every, withinLimitsHere]

end Value

namespace Cbor

open Value

/-- A shortest head determines its major type and its argument, and so where it ends. -/
theorem head_append_inj {major major' n n' : Nat} {rest rest' : List UInt8} (small : major < 8)
    (small' : major' < 8) (fits : n < 2 ^ 64) (fits' : n' < 2 ^ 64)
    (same : head major n ++ rest = head major' n' ++ rest') : major = major' ∧ n = n' ∧ rest = rest' := by
  rw [head_append, head_append] at same
  obtain ⟨first, tail⟩ := List.cons.inj same
  have sameMajor : major = major' := by
    have byte := firstByte_major small (headInfo_lt n)
    rw [first, firstByte_major small' (headInfo_lt n')] at byte
    exact byte.symm
  have sameInfo : headInfo n = headInfo n' := by
    have byte := @firstByte_info major _ (headInfo_lt n)
    rw [first, firstByte_info (headInfo_lt n')] at byte
    exact byte.symm
  have read := readArgument_head fits rest
  rw [sameInfo, tail] at read
  have read' := readArgument_head fits' rest'
  exact ⟨sameMajor, Except.ok.inj (read.1.symm.trans read'.1), read.2.symm.trans read'.2⟩

theorem majorType_eq_of_write_append {x y : Value} (encodable : x.Encodable) (encodable' : y.Encodable)
    {rest rest' : List UInt8} (same : (write x).1 ++ rest = (write y).1 ++ rest') : x.majorType = y.majorType := by
  obtain ⟨info, tail, small, bytes⟩ := write_cons encodable
  obtain ⟨info', tail', small', bytes'⟩ := write_cons encodable'
  rw [bytes, bytes'] at same
  have byte := firstByte_major (majorType_lt x) small
  rw [(List.cons.inj same).1, firstByte_major (majorType_lt y) small'] at byte
  exact byte.symm

/-- Within the reader's limits the reader tells encodings apart. -/
theorem write_append_inj_within {x y : Value} (encodable : x.Encodable) (encodable' : y.Encodable)
    (within : x.WithinLimits) (within' : y.WithinLimits) {rest rest' : List UInt8}
    (same : (write x).1 ++ rest = (write y).1 ++ rest') :
    reorder Double.canonical x = reorder Double.canonical y ∧ rest = rest' := by
  have read := readValue_write encodable within rest
  rw [same] at read
  have read' := readValue_write encodable' within' rest'
  exact ⟨Except.ok.inj (read.1.symm.trans read'.1), read.2.symm.trans read'.2⟩

/-- Codes that delimit themselves on the given values delimit their concatenations: where two
concatenations of as many codes agree up to what follows them, they agree code by code. -/
theorem flatMap_append_inj {α : Type} {code : α → List UInt8} {agree : α → α → Prop} {xs ys : List α}
    {rest rest' : List UInt8} (length : xs.length = ys.length)
    (each : ∀ x ∈ xs, ∀ y ∈ ys, ∀ r r', code x ++ r = code y ++ r' → agree x y ∧ r = r')
    (same : xs.flatMap code ++ rest = ys.flatMap code ++ rest') : List.Forall₂ agree xs ys ∧ rest = rest' := by
  induction xs generalizing ys with
  | nil =>
    cases ys with
    | nil => exact ⟨.nil, by simpa using same⟩
    | cons => simp at length
  | cons x xs ih =>
    cases ys with
    | nil => simp at length
    | cons y ys =>
      rw [List.flatMap_cons, List.flatMap_cons, List.append_assoc, List.append_assoc] at same
      obtain ⟨first, after⟩ := each x (by simp) y (by simp) _ _ same
      obtain ⟨others, tail⟩ := ih (by simpa using length)
        (fun a inA b inB => each a (by simp [inA]) b (by simp [inB])) after
      exact ⟨.cons first others, tail⟩

theorem map_eq_of_forall₂ {α β : Type} {f g : α → β} {xs ys : List α}
    (agree : List.Forall₂ (fun x y => f x = g y) xs ys) : xs.map f = ys.map g := by
  induction agree with
  | nil => rfl
  | cons head _ ih => rw [List.map_cons, List.map_cons, head, ih]

theorem write_bytes (bs : List UInt8) : (write (.bytes bs)).1 = head 2 bs.length ++ bs := rfl

theorem write_text (s : String) : (write (.text s)).1 = head 3 s.toUTF8.toList.length ++ s.toUTF8.toList := by
  rw [← utf8ByteSize_eq_length]
  rfl

theorem write_array {items : List Value} (encodable : (Value.array items).Encodable) :
    (write (.array items)).1 = head 4 items.length ++ items.flatMap fun x => (write x).1 := by
  rw [write, andThen_ok, writeItems_of_ok fun x member => (write_ok_iff x).mpr (encodable_array.mp encodable x member)]

/-- Where the encodings of two documents agree up to what follows them, the documents read back alike
and what follows agrees. -/
theorem write_append_inj {x y : Value} (encodable : x.Encodable) (encodable' : y.Encodable)
    (sized : x.Addressable) (sized' : y.Addressable) {rest rest' : List UInt8}
    (same : (write x).1 ++ rest = (write y).1 ++ rest') :
    reorder Double.canonical x = reorder Double.canonical y ∧ rest = rest' := by
  induction x generalizing y rest rest' with
  | null =>
    have major := majorType_eq_of_write_append encodable encodable' same
    exact write_append_inj_within encodable encodable' rfl (withinLimits_of_scalar (.inr (.inr major.symm))) same
  | bool b =>
    have major := majorType_eq_of_write_append encodable encodable' same
    exact write_append_inj_within encodable encodable' rfl (withinLimits_of_scalar (.inr (.inr major.symm))) same
  | int n =>
    have major := majorType_eq_of_write_append encodable encodable' same
    have sign : y.majorType = 0 ∨ y.majorType = 1 := by
      rw [← major, majorType]
      split <;> simp
    exact write_append_inj_within encodable encodable' rfl (withinLimits_of_scalar (by omega)) same
  | float z =>
    have major := majorType_eq_of_write_append encodable encodable' same
    exact write_append_inj_within encodable encodable' rfl (withinLimits_of_scalar (.inr (.inr major.symm))) same
  | bytes bs =>
    have major := majorType_eq_of_write_append encodable encodable' same
    cases y with
    | bytes bs' =>
      rw [write_bytes, write_bytes, List.append_assoc, List.append_assoc] at same
      obtain ⟨-, length, tail⟩ := head_append_inj (by decide) (by decide) (addressable_bytes.mp sized)
        (addressable_bytes.mp sized') same
      obtain ⟨rfl, rfl⟩ := List.append_inj tail length
      exact ⟨rfl, rfl⟩
    | _ => simp [majorType, eq_ite_iff] at major
  | text s =>
    have major := majorType_eq_of_write_append encodable encodable' same
    cases y with
    | text t =>
      rw [write_text, write_text, List.append_assoc, List.append_assoc] at same
      obtain ⟨-, length, tail⟩ := head_append_inj (by decide) (by decide)
        (utf8ByteSize_eq_length s ▸ addressable_text.mp sized) (utf8ByteSize_eq_length t ▸ addressable_text.mp sized') same
      obtain ⟨bytes, rfl⟩ := List.append_inj tail length
      rw [text_inj_of_utf8 bytes]
      exact ⟨rfl, rfl⟩
    | _ => simp [majorType, eq_ite_iff] at major
  | array items ih =>
    have major := majorType_eq_of_write_append encodable encodable' same
    cases y with
    | array items' =>
      obtain ⟨short, inner⟩ := addressable_array.mp sized
      obtain ⟨short', inner'⟩ := addressable_array.mp sized'
      have each := encodable_array.mp encodable
      have each' := encodable_array.mp encodable'
      rw [write_array encodable, write_array encodable', List.append_assoc, List.append_assoc] at same
      obtain ⟨-, length, tail⟩ := head_append_inj (by decide) (by decide) short short' same
      obtain ⟨agree, rfl⟩ := @flatMap_append_inj _ (fun x => (write x).1)
        (fun x y => reorder Double.canonical x = reorder Double.canonical y) _ _ _ _ length
        (fun x member y member' r r' same =>
          ih x member (each x member) (each' y member') (inner x member) (inner' y member') same) tail
      rw [reorder_array, reorder_array, map_eq_of_forall₂ agree]
      exact ⟨rfl, rfl⟩
    | _ => simp [majorType, eq_ite_iff] at major
  | map entries ih =>
    have major := majorType_eq_of_write_append encodable encodable' same
    cases y with
    | map entries' =>
      obtain ⟨short, inner⟩ := addressable_map.mp sized
      obtain ⟨short', inner'⟩ := addressable_map.mp sized'
      have each := (encodable_map.mp encodable).2
      have each' := (encodable_map.mp encodable').2
      have perm : (sortByEncodedKey entries).Perm entries := List.mergeSort_perm _ _
      have perm' : (sortByEncodedKey entries').Perm entries' := List.mergeSort_perm _ _
      have keyWrite p (member : p ∈ entries) : write (reorder Double.canonical p.1) = write p.1 :=
        (reorder_encodable_and_write unseen_canonical p.1 (each p member).1).2
      have keyWrite' p (member : p ∈ entries') : write (reorder Double.canonical p.1) = write p.1 :=
        (reorder_encodable_and_write unseen_canonical p.1 (each' p member).1).2
      rw [write_map_of_encodable encodable, write_map_of_encodable encodable', List.append_assoc,
        List.append_assoc] at same
      obtain ⟨-, length, tail⟩ := head_append_inj (by decide) (by decide) short short' same
      have pairs : ∀ p ∈ sortByEncodedKey entries, ∀ q ∈ sortByEncodedKey entries', ∀ r r',
          ((write p.1).1 ++ (write p.2).1) ++ r = ((write q.1).1 ++ (write q.2).1) ++ r' →
            (reorder Double.canonical p.1, reorder Double.canonical p.2) =
              (reorder Double.canonical q.1, reorder Double.canonical q.2) ∧ r = r' := by
        intro p member q member' r r' same
        have member := perm.mem_iff.mp member
        have member' := perm'.mem_iff.mp member'
        rw [List.append_assoc, List.append_assoc] at same
        obtain ⟨keys, after⟩ := (ih p member).1 (each p member).1 (each' q member').1 (inner p member).1
          (inner' q member').1 same
        obtain ⟨values, rfl⟩ := (ih p member).2 (each p member).2 (each' q member').2 (inner p member).2
          (inner' q member').2 after
        exact ⟨by rw [keys, values], rfl⟩
      obtain ⟨agree, rfl⟩ := flatMap_append_inj (by rw [perm.length_eq, perm'.length_eq]; exact length) pairs tail
      rw [reorder_map, reorder_map, sortByEncodedKey_map _ keyWrite, sortByEncodedKey_map _ keyWrite',
        map_eq_of_forall₂ agree]
      exact ⟨rfl, rfl⟩
    | _ => simp [majorType, eq_ite_iff] at major

theorem write_inj {x y : Value} (encodable : x.Encodable) (encodable' : y.Encodable) (sized : x.Addressable)
    (sized' : y.Addressable) (same : (write x).1 = (write y).1) :
    reorder Double.canonical x = reorder Double.canonical y :=
  (@write_append_inj x y encodable encodable' sized sized' [] [] (by rw [same])).1

end Cbor

namespace Double

theorem ieeeEq_comm (x y : Double) : x.ieeeEq y = y.ieeeEq x := by
  unfold ieeeEq
  cases x.isNaN <;> cases y.isNaN <;> cases x.isZero <;> cases y.isZero <;> simp [eq_comm]

theorem ieeeEq_trans {x y z : Double} (first : x.ieeeEq y = true) (second : y.ieeeEq z = true) :
    x.ieeeEq z = true := by
  obtain ⟨x⟩ := x
  obtain ⟨y⟩ := y
  obtain ⟨z⟩ := z
  simp only [ieeeEq, isZero, Bool.and_eq_true, Bool.not_eq_eq_eq_not, Bool.not_true, Bool.or_eq_true,
    beq_iff_eq] at *
  obtain ⟨⟨notNaN, -⟩, same | ⟨zero, zero'⟩⟩ := first <;> obtain ⟨⟨-, notNaN'⟩, same' | ⟨zero'', zero'''⟩⟩ := second
  · exact ⟨⟨notNaN, notNaN'⟩, .inl (same.trans same')⟩
  · exact ⟨⟨notNaN, notNaN'⟩, .inr ⟨same ▸ zero'', zero'''⟩⟩
  · exact ⟨⟨notNaN, notNaN'⟩, .inr ⟨zero, same' ▸ zero'⟩⟩
  · exact ⟨⟨notNaN, notNaN'⟩, .inr ⟨zero, zero'''⟩⟩

/-- Numerically equal doubles have one canonical form. -/
theorem canonical_eq_of_ieeeEq {x y : Double} (same : x.ieeeEq y = true) :
    x.isNaN = false ∧ y.isNaN = false ∧ x.canonical = y.canonical := by
  simp only [ieeeEq, Bool.and_eq_true, Bool.not_eq_eq_eq_not, Bool.not_true, Bool.or_eq_true, beq_iff_eq] at same
  obtain ⟨⟨notNaN, notNaN'⟩, bits | ⟨zero, zero'⟩⟩ := same
  · have : x = y := by
      obtain ⟨x⟩ := x
      obtain ⟨y⟩ := y
      simp only at bits
      rw [bits]
    subst this
    exact ⟨notNaN, notNaN', rfl⟩
  · exact ⟨notNaN, notNaN', by simp [canonical, zero, zero']⟩

end Double

namespace Value

theorem beq_symm {a b : Value} (same : beq a b = true) : beq b a = true := by
  induction a generalizing b with
  | float x => cases b <;> simp_all [beq, Double.ieeeEq_comm]
  | array items ih =>
    cases b with
    | array items' =>
      simp only [beq] at same ⊢
      induction items generalizing items' with
      | nil => cases items' <;> simp_all [beqItems]
      | cons x xs inner =>
        cases items' with
        | nil => simp [beqItems] at same
        | cons y ys =>
          simp only [beqItems, Bool.and_eq_true] at same ⊢
          exact ⟨ih x (by simp) same.1, inner (fun z member => ih z (by simp [member])) ys same.2⟩
    | _ => simp [beq] at same
  | map entries ih =>
    cases b with
    | map entries' =>
      simp only [beq] at same ⊢
      induction entries generalizing entries' with
      | nil => cases entries' <;> simp_all [beqEntries]
      | cons p ps inner =>
        cases entries' with
        | nil => simp [beqEntries] at same
        | cons q qs =>
          simp only [beqEntries, Bool.and_eq_true] at same ⊢
          exact ⟨⟨(ih p (by simp)).1 same.1.1, (ih p (by simp)).2 same.1.2⟩,
            inner (fun r member => ih r (by simp [member])) qs same.2⟩
    | _ => simp [beq] at same
  | _ => cases b <;> simp_all [beq]

theorem beq_trans {a b c : Value} (first : beq a b = true) (second : beq b c = true) : beq a c = true := by
  induction a generalizing b c with
  | float x =>
    cases b <;> cases c <;> simp_all [beq]
    exact Double.ieeeEq_trans first second
  | array items ih =>
    cases b with
    | array items' =>
      cases c with
      | array items'' =>
        simp only [beq] at first second ⊢
        induction items generalizing items' items'' with
        | nil => cases items' <;> cases items'' <;> simp_all [beqItems]
        | cons x xs inner =>
          cases items' with
          | nil => simp [beqItems] at first
          | cons y ys =>
            cases items'' with
            | nil => simp [beqItems] at second
            | cons z zs =>
              simp only [beqItems, Bool.and_eq_true] at first second ⊢
              exact ⟨ih x (by simp) first.1 second.1,
                inner (fun w member => ih w (by simp [member])) ys first.2 zs second.2⟩
      | _ => simp [beq] at second
    | _ => simp [beq] at first
  | map entries ih =>
    cases b with
    | map entries' =>
      cases c with
      | map entries'' =>
        simp only [beq] at first second ⊢
        induction entries generalizing entries' entries'' with
        | nil => cases entries' <;> cases entries'' <;> simp_all [beqEntries]
        | cons p ps inner =>
          cases entries' with
          | nil => simp [beqEntries] at first
          | cons q qs =>
            cases entries'' with
            | nil => simp [beqEntries] at second
            | cons r rs =>
              simp only [beqEntries, Bool.and_eq_true] at first second ⊢
              exact ⟨⟨(ih p (by simp)).1 first.1.1 second.1.1, (ih p (by simp)).2 first.1.2 second.1.2⟩,
                inner (fun t member => ih t (by simp [member])) qs first.2 rs second.2⟩
      | _ => simp [beq] at second
    | _ => simp [beq] at first
  | _ => cases b <;> cases c <;> simp_all [beq]

end Value

namespace Cbor

open Value

theorem writeItems_congr {items items' : List Value} (same : items.map write = items'.map write) :
    writeItems items = writeItems items' := by
  induction items generalizing items' with
  | nil => cases items' <;> simp_all
  | cons x xs ih =>
    cases items' with
    | nil => simp at same
    | cons y ys =>
      obtain ⟨first, rest⟩ := List.cons.inj same
      rw [writeItems, writeItems, first, ih rest]

theorem write_map_congr {entries entries' : List (Value × Value)}
    (same : (entries.map fun p => (write p.1, write p.2)) = entries'.map fun p => (write p.1, write p.2)) :
    write (.map entries) = write (.map entries') := by
  rw [write, write, writeEntries_eq, writeEntries_eq, same]

/-- Equal documents (`==`) are written alike: the two zeros have one encoding. -/
theorem write_eq_of_beq {a b : Value} (same : (a == b) = true) : write a = write b := by
  change beq a b = true at same
  induction a generalizing b with
  | float x =>
    cases b with
    | float y =>
      obtain ⟨notNaN, notNaN', canonical⟩ := Double.canonical_eq_of_ieeeEq same
      simp [write, notNaN, notNaN', canonical]
    | _ => simp [beq] at same
  | array items ih =>
    cases b with
    | array items' =>
      simp only [beq] at same
      have writes : items.map write = items'.map write := by
        induction items generalizing items' with
        | nil => cases items' <;> simp_all [beqItems]
        | cons x xs inner =>
          cases items' with
          | nil => simp [beqItems] at same
          | cons y ys =>
            simp only [beqItems, Bool.and_eq_true] at same
            rw [List.map_cons, List.map_cons, ih x (by simp) same.1,
              inner (fun z member => ih z (by simp [member])) ys same.2]
      have length : items.length = items'.length := by simpa using congrArg List.length writes
      rw [write, write, length, writeItems_congr writes]
    | _ => simp [beq] at same
  | map entries ih =>
    cases b with
    | map entries' =>
      simp only [beq] at same
      refine write_map_congr ?_
      induction entries generalizing entries' with
      | nil => cases entries' <;> simp_all [beqEntries]
      | cons p ps inner =>
        cases entries' with
        | nil => simp [beqEntries] at same
        | cons q qs =>
          simp only [beqEntries, Bool.and_eq_true] at same
          rw [List.map_cons, List.map_cons, (ih p (by simp)).1 same.1.1, (ih p (by simp)).2 same.1.2,
            inner (fun t member => ih t (by simp [member])) qs same.2]
    | _ => simp [beq] at same
  | _ => cases b <;> simp_all [beq]

/-- Reordering the pairs of an encodable map does not change its encoding: the writer sorts them. -/
theorem write_map_perm {entries entries' : List (Value × Value)} (perm : entries.Perm entries')
    (encodable : (Value.map entries).Encodable) :
    (Value.map entries').Encodable ∧ write (.map entries) = write (.map entries') := by
  obtain ⟨distinct, each⟩ := encodable_map.mp encodable
  have encodable' : (Value.map entries').Encodable :=
    encodable_map.mpr ⟨(perm.map _).nodup_iff.mp distinct, fun p member => each p (perm.mem_iff.mpr member)⟩
  have sorted : sortByEncodedKey entries = sortByEncodedKey entries' := by
    refine List.Perm.eq_of_pairwise (fun p q _ _ before after => ?_) (sortByEncodedKey_strict encodable)
      (sortByEncodedKey_strict encodable') (((List.mergeSort_perm _ _).trans perm).trans (List.mergeSort_perm _ _).symm)
    have never := keyStrictlyBefore_trans before after
    rw [keyStrictlyBefore_irrefl] at never
    cases never
  refine ⟨encodable', ?_⟩
  rw [write_map_of_encodable encodable, write_map_of_encodable encodable', sorted, perm.length_eq]

theorem write_array_congr {pre post : List Value} {x y : Value} (same : write x = write y) :
    write (.array (pre ++ x :: post)) = write (.array (pre ++ y :: post)) := by
  have writes : (pre ++ x :: post).map write = (pre ++ y :: post).map write := by simp [same]
  rw [write, write, writeItems_congr writes]
  simp

end Cbor

namespace Value

open Cbor

/-- One document is another with the pairs of some of its maps, at any depth, put in another order. -/
inductive Rearranged : Value → Value → Prop
  | refl (v : Value) : Rearranged v v
  | trans {a b c : Value} : Rearranged a b → Rearranged b c → Rearranged a c
  /-- The pairs of a map in another order. -/
  | permute {entries entries' : List (Value × Value)} : entries.Perm entries' →
      Rearranged (.map entries) (.map entries')
  /-- An element of an array rearranged. -/
  | item {pre post : List Value} {x y : Value} : Rearranged x y →
      Rearranged (.array (pre ++ x :: post)) (.array (pre ++ y :: post))
  /-- A key of a map rearranged. -/
  | key {pre post : List (Value × Value)} {k k' v : Value} : Rearranged k k' →
      Rearranged (.map (pre ++ (k, v) :: post)) (.map (pre ++ (k', v) :: post))
  /-- A value of a map rearranged. -/
  | value {pre post : List (Value × Value)} {k v v' : Value} : Rearranged v v' →
      Rearranged (.map (pre ++ (k, v) :: post)) (.map (pre ++ (k, v') :: post))

/-- Two documents are equal (`==`) once the pairs of every map in each, at every depth, are put in
suitable orders. -/
def SameUpToOrder (a b : Value) : Prop := ∃ a' b', Rearranged a a' ∧ Rearranged b b' ∧ (a' == b') = true

/-- Rearranging an encodable document keeps it encodable and does not change its encoding. -/
theorem Rearranged.write_eq {a b : Value} (rearranged : Rearranged a b) (encodable : a.Encodable) :
    b.Encodable ∧ write a = write b := by
  induction rearranged with
  | refl => exact ⟨encodable, rfl⟩
  | trans _ _ first second =>
    obtain ⟨middle, same⟩ := first encodable
    obtain ⟨last, same'⟩ := second middle
    exact ⟨last, same.trans same'⟩
  | permute perm => exact write_map_perm perm encodable
  | @item pre post x y _ ih =>
    obtain ⟨inner, same⟩ := ih (encodable_array.mp encodable x (by simp))
    have equal := @write_array_congr pre post _ _ same
    exact ⟨(write_ok_iff _).mp (equal ▸ (write_ok_iff _).mpr encodable), equal⟩
  | @key pre post k k' v _ ih =>
    obtain ⟨inner, same⟩ := ih ((encodable_map.mp encodable).2 (k, v) (by simp)).1
    have equal : write (.map (pre ++ (k, v) :: post)) = write (.map (pre ++ (k', v) :: post)) :=
      write_map_congr (by simp [same])
    exact ⟨(write_ok_iff _).mp (equal ▸ (write_ok_iff _).mpr encodable), equal⟩
  | @value pre post k v v' _ ih =>
    obtain ⟨inner, same⟩ := ih ((encodable_map.mp encodable).2 (k, v) (by simp)).2
    have equal : write (.map (pre ++ (k, v) :: post)) = write (.map (pre ++ (k, v') :: post)) :=
      write_map_congr (by simp [same])
    exact ⟨(write_ok_iff _).mp (equal ▸ (write_ok_iff _).mpr encodable), equal⟩

/-- Rearranging the elements of an array one by one. -/
theorem Rearranged.items {items : List Value} {f : Value → Value} (each : ∀ x ∈ items, Rearranged x (f x)) :
    Rearranged (.array items) (.array (items.map f)) := by
  suffices from_pre : ∀ pre, Rearranged (.array (pre ++ items)) (.array (pre ++ items.map f)) by
    simpa using from_pre []
  induction items with
  | nil => exact fun pre => .refl _
  | cons x xs ih =>
    intro pre
    have rest := ih (fun y member => each y (by simp [member])) (pre ++ [f x])
    simp only [List.append_assoc, List.singleton_append] at rest
    exact .trans (.item (each x (by simp))) (by simpa using rest)

/-- Rearranging the keys and values of a map pair by pair. -/
theorem Rearranged.entries {entries : List (Value × Value)} {f g : Value → Value}
    (each : ∀ p ∈ entries, Rearranged p.1 (f p.1) ∧ Rearranged p.2 (g p.2)) :
    Rearranged (.map entries) (.map (entries.map fun p => (f p.1, g p.2))) := by
  suffices from_pre : ∀ pre, Rearranged (.map (pre ++ entries)) (.map (pre ++ entries.map fun p => (f p.1, g p.2))) by
    simpa using from_pre []
  induction entries with
  | nil => exact fun pre => .refl _
  | cons p ps ih =>
    intro pre
    obtain ⟨k, v⟩ := p
    have rest := ih (fun q member => each q (by simp [member])) (pre ++ [(f k, g v)])
    simp only [List.append_assoc, List.singleton_append] at rest
    have keyed : Rearranged (.map (pre ++ (k, v) :: ps)) (.map (pre ++ (f k, v) :: ps)) := .key (each (k, v) (by simp)).1
    have valued : Rearranged (.map (pre ++ (f k, v) :: ps)) (.map (pre ++ (f k, g v) :: ps)) :=
      .value (each (k, v) (by simp)).2
    exact .trans (.trans keyed valued) (by simpa using rest)

/-- The normal form of a document is one of its rearrangements. -/
theorem rearranged_normalize (v : Value) : Rearranged v v.normalize := by
  induction v with
  | array items ih =>
    unfold Value.normalize
    rw [reorder_array]
    exact Rearranged.items ih
  | map entries ih =>
    unfold Value.normalize
    rw [reorder_map]
    exact .trans (Rearranged.entries ih) (.permute (List.mergeSort_perm _ _).symm)
  | _ => exact .refl _

theorem SameUpToOrder.write_eq {a b : Value} (same : SameUpToOrder a b) (encodable : a.Encodable)
    (encodable' : b.Encodable) : write a = write b := by
  obtain ⟨a', b', toA, toB, equal⟩ := same
  rw [(toA.write_eq encodable).2, write_eq_of_beq equal, ← (toB.write_eq encodable').2]

/-- Two encodable documents, their sizes within what a head can carry, have the same encoding exactly
when they are equal up to the order of map pairs. -/
theorem write_eq_iff_sameUpToOrder {a b : Value} (encodable : a.Encodable) (encodable' : b.Encodable)
    (sized : a.Addressable) (sized' : b.Addressable) : (write a).1 = (write b).1 ↔ SameUpToOrder a b := by
  constructor
  · intro same
    have read := write_inj encodable encodable' sized sized' same
    have first : (a.normalize == reorder Double.canonical a) = true :=
      beq_reorder unseen_id unseen_canonical (fun x notNaN => by
        rw [id, Double.ieeeEq_comm]
        exact ieeeEq_canonical notNaN) a encodable
    have second : (reorder Double.canonical b == b.normalize) = true := reorder_canonical_beq_normalize encodable'
    rw [← read] at second
    exact ⟨_, _, rearranged_normalize a, rearranged_normalize b, beq_trans first second⟩
  · exact fun same => congrArg Prod.fst (same.write_eq encodable encodable')

end Value

end GameVault
