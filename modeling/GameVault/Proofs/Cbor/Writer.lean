import Mathlib
import GameVault.Proofs.Value.Basic
import GameVault.Cbor.Encode
import GameVault.Cbor.Decode
import GameVault.Proofs.Sorting.Small

namespace GameVault

theorem compareBytes_swap (a b : List UInt8) : compareBytes b a = (compareBytes a b).swap := by
  induction a generalizing b with
  | nil => cases b <;> rfl
  | cons x xs ih =>
    cases b with
    | nil => rfl
    | cons y ys =>
      have swap : compare y x = (compare x y).swap := Std.OrientedOrd.eq_swap
      simp only [compareBytes, ih, Ordering.swap_then, swap]

theorem compareBytes_eq_iff {a b : List UInt8} : compareBytes a b = .eq ↔ a = b := by
  induction a generalizing b with
  | nil => cases b <;> simp [compareBytes]
  | cons x xs ih =>
    cases b with
    | nil => simp [compareBytes]
    | cons y ys => simp [compareBytes, Ordering.then_eq_eq, ih]

theorem compareBytes_lt_trans {a b c : List UInt8} (first : compareBytes a b = .lt)
    (second : compareBytes b c = .lt) : compareBytes a c = .lt := by
  induction a generalizing b c with
  | nil => cases c <;> cases b <;> simp_all [compareBytes]
  | cons x xs ih =>
    cases b with
    | nil => simp [compareBytes] at first
    | cons y ys =>
      cases c with
      | nil => simp [compareBytes] at second
      | cons z zs =>
        simp only [compareBytes, Ordering.then_eq_lt, Std.compare_eq_lt, Std.compare_eq_iff_eq] at first second ⊢
        rcases first with below | ⟨rfl, rest⟩
        · rcases second with below' | ⟨rfl, -⟩
          · exact Or.inl (UInt8.lt_trans below below')
          · exact Or.inl below
        · rcases second with below' | ⟨rfl, rest'⟩
          · exact Or.inl below'
          · exact Or.inr ⟨rfl, ih rest rest'⟩

namespace Cbor

theorem keyBefore_iff {a b : List UInt8} :
    keyBefore a b = true ↔ keyStrictlyBefore a b = true ∨ a = b := by
  have swap := compareBytes_swap a b
  simp only [keyBefore, keyStrictlyBefore, Bool.or_eq_true, decide_eq_true_eq, Bool.and_eq_true, beq_iff_eq,
    bne_iff_ne, ne_eq]
  constructor
  · rintro (shorter | ⟨same, notAfter⟩)
    · exact Or.inl (Or.inl shorter)
    · cases order : compareBytes a b
      · exact Or.inl (Or.inr ⟨same, rfl⟩)
      · exact Or.inr (compareBytes_eq_iff.mp order)
      · exact absurd order notAfter
  · rintro ((shorter | ⟨same, before⟩) | rfl)
    · exact Or.inl shorter
    · exact Or.inr ⟨same, by simp [before]⟩
    · exact Or.inr ⟨rfl, by simp [(compareBytes_eq_iff).mpr rfl]⟩

theorem keyStrictlyBefore_irrefl (a : List UInt8) : keyStrictlyBefore a a = false := by
  simp [keyStrictlyBefore, (compareBytes_eq_iff).mpr rfl]

theorem keyStrictlyBefore_trans {a b c : List UInt8} (first : keyStrictlyBefore a b = true)
    (second : keyStrictlyBefore b c = true) : keyStrictlyBefore a c = true := by
  simp only [keyStrictlyBefore, Bool.or_eq_true, decide_eq_true_eq, Bool.and_eq_true, beq_iff_eq] at *
  rcases first with shorter | ⟨same, before⟩ <;> rcases second with shorter' | ⟨same', before'⟩
  · exact Or.inl (by omega)
  · exact Or.inl (by omega)
  · exact Or.inl (by omega)
  · exact Or.inr ⟨by omega, compareBytes_lt_trans before before'⟩

theorem keyBefore_trans (a b c : List UInt8) (first : keyBefore a b = true) (second : keyBefore b c = true) :
    keyBefore a c = true := by
  rw [keyBefore_iff] at *
  rcases first with first | rfl
  · rcases second with second | rfl
    · exact Or.inl (keyStrictlyBefore_trans first second)
    · exact Or.inl first
  · exact second

theorem keyBefore_total (a b : List UInt8) : (keyBefore a b || keyBefore b a) = true := by
  have swap := compareBytes_swap a b
  simp only [keyBefore, Bool.or_eq_true, decide_eq_true_eq, Bool.and_eq_true, beq_iff_eq, bne_iff_ne, ne_eq]
  rcases Nat.lt_trichotomy a.length b.length with shorter | same | longer
  · exact Or.inl (Or.inl shorter)
  · cases order : compareBytes a b
    · exact Or.inl (Or.inr ⟨same, by simp⟩)
    · exact Or.inl (Or.inr ⟨same, by simp⟩)
    · exact Or.inr (Or.inr ⟨same.symm, by simp [swap, order]⟩)
  · exact Or.inr (Or.inl longer)

theorem andThen_ok (bs : List UInt8) (next : Unit → Written) :
    Written.andThen (bs, none) next = (bs ++ (next ()).1, (next ()).2) := rfl

theorem andThen_ok_iff {first : Written} {next : Unit → Written} :
    (Written.andThen first next).2 = none ↔ first.2 = none ∧ (next ()).2 = none := by
  obtain ⟨bs, _ | e⟩ := first
  · simp [andThen_ok]
  · simp [Written.andThen]

theorem writeEntries_eq (entries : List (Value × Value)) :
    writeEntries entries = entries.map fun p => (write p.1, write p.2) := by
  induction entries with
  | nil => rfl
  | cons p rest ih =>
    obtain ⟨k, v⟩ := p
    simp [writeEntries, ih]

theorem writeItems_ok_iff {items : List Value} :
    (writeItems items).2 = none ↔ ∀ x ∈ items, (write x).2 = none := by
  induction items with
  | nil => simp [writeItems]
  | cons x xs ih => simp [writeItems, andThen_ok_iff, ih]

theorem writeItems_of_ok {items : List Value} (ok : ∀ x ∈ items, (write x).2 = none) :
    writeItems items = (items.flatMap fun x => (write x).1, none) := by
  induction items with
  | nil => rfl
  | cons x xs ih =>
    have head : write x = ((write x).1, none) := by rw [← ok x (by simp)]
    rw [writeItems, head, andThen_ok, ih (fun y member => ok y (by simp [member]))]
    simp

/-- Writes the pairs of a map one after another, each key's encoding before its value. -/
def writePairs (sorted : List (Written × Written)) : Written :=
  sorted.foldr (fun (k, v) acc => Written.andThen (k.1, none) fun _ => Written.andThen v fun _ => acc) ([], none)

theorem writePairs_ok_iff {sorted : List (Written × Written)} :
    (writePairs sorted).2 = none ↔ ∀ p ∈ sorted, p.2.2 = none := by
  induction sorted with
  | nil => simp [writePairs]
  | cons p rest ih =>
    obtain ⟨k, v⟩ := p
    simp only [writePairs, List.foldr_cons] at ih ⊢
    rw [andThen_ok_iff, andThen_ok_iff, ih]
    simp

theorem writePairs_of_ok {sorted : List (Written × Written)} (ok : ∀ p ∈ sorted, p.2.2 = none) :
    writePairs sorted = (sorted.flatMap fun p => p.1.1 ++ p.2.1, none) := by
  induction sorted with
  | nil => rfl
  | cons p rest ih =>
    obtain ⟨⟨kb, ke⟩, ⟨vb, ve⟩⟩ := p
    have value : ve = none := ok ((kb, ke), vb, ve) (by simp)
    subst value
    have tail := ih (fun q member => ok q (by simp [member]))
    simp only [writePairs, List.foldr_cons] at tail ⊢
    rw [andThen_ok, andThen_ok, tail]
    simp

theorem hasAdjacentDuplicate_of_nodup {keys : List (List UInt8)} (distinct : keys.Nodup) :
    hasAdjacentDuplicate keys = false := by
  induction keys with
  | nil => rfl
  | cons a rest ih =>
    cases rest with
    | nil => rfl
    | cons b more =>
      have apart : a ≠ b := fun same => (List.nodup_cons.mp distinct).1 (by simp [same])
      simp [hasAdjacentDuplicate, apart, ih (List.nodup_cons.mp distinct).2]

/-- In keys ordered by `keyBefore`, no two neighbours equal means strictly increasing. -/
theorem pairwise_strict_of_hasAdjacentDuplicate {keys : List (List UInt8)}
    (sorted : keys.Pairwise fun a b => keyBefore a b = true) (apart : hasAdjacentDuplicate keys = false) :
    keys.Pairwise fun a b => keyStrictlyBefore a b = true := by
  induction keys with
  | nil => exact .nil
  | cons a rest ih =>
    cases rest with
    | nil => exact List.pairwise_singleton _ a
    | cons b more =>
      simp only [hasAdjacentDuplicate, Bool.or_eq_false_iff, beq_eq_false_iff_ne] at apart
      have tail := ih sorted.of_cons apart.2
      have first : keyStrictlyBefore a b = true := by
        rcases keyBefore_iff.mp (List.rel_of_pairwise_cons sorted (show b ∈ b :: more from List.mem_cons_self)) with before | same
        · exact before
        · exact absurd same apart.1
      refine List.Pairwise.cons ?_ tail
      intro c member
      rcases List.mem_cons.mp member with rfl | later
      · exact first
      · rcases keyBefore_iff.mp (List.rel_of_pairwise_cons (List.pairwise_cons.mp sorted).2 later) with
          before | rfl
        · exact keyStrictlyBefore_trans first before
        · exact first

theorem pairwise_strict_of_nodup {keys : List (List UInt8)}
    (sorted : keys.Pairwise fun a b => keyBefore a b = true) (distinct : keys.Nodup) :
    keys.Pairwise fun a b => keyStrictlyBefore a b = true :=
  pairwise_strict_of_hasAdjacentDuplicate sorted (hasAdjacentDuplicate_of_nodup distinct)

/-- The written pairs of a map in the order the writer puts them: by the encoding of the key. -/
def sortWritten (pairs : List (Written × Written)) : List (Written × Written) :=
  pairs.mergeSort fun a b => keyBefore a.1.1 b.1.1

theorem mergeSort_keyBefore_eq (pairs : List (Written × Written)) :
    pairs.mergeSort (fun a b => keyBefore a.1.1 b.1.1) =
      Sorting.insertionSort (fun a b => !keyBefore b.1.1 a.1.1) pairs :=
  Sorting.mergeSort_eq_insertionSort (fun a b => keyBefore_total a.1.1 b.1.1)
    (fun a b c => keyBefore_trans a.1.1 b.1.1 c.1.1) pairs

theorem sortWritten_keys_sorted (pairs : List (Written × Written)) :
    ((sortWritten pairs).map fun p => p.1.1).Pairwise fun a b => keyBefore a b = true := by
  rw [List.pairwise_map]
  exact List.pairwise_mergeSort (fun a b c => keyBefore_trans a.1.1 b.1.1 c.1.1)
    (fun a b => keyBefore_total a.1.1 b.1.1) pairs

theorem writeMap_ok_iff {pairs : List (Written × Written)} :
    (writeMap pairs).2 = none ↔
      (∀ p ∈ pairs, p.1.2 = none) ∧ (pairs.map fun p => p.1.1).Nodup ∧ ∀ p ∈ pairs, p.2.2 = none := by
  have perm : (sortWritten pairs).Perm pairs := List.mergeSort_perm _ _
  have keysPerm : ((sortWritten pairs).map fun p => p.1.1).Perm (pairs.map fun p => p.1.1) := perm.map _
  unfold writeMap
  cases keyError : pairs.findSome? (fun (k, _) => k.2) with
  | some e =>
    obtain ⟨p, member, failed⟩ := List.exists_of_findSome?_eq_some keyError
    simp only [reduceCtorEq, false_iff, not_and]
    intro keysOk
    simp [keysOk p member] at failed
  | none =>
    have keysOk : ∀ p ∈ pairs, p.1.2 = none := by
      simpa using List.findSome?_eq_none_iff.mp keyError
    rw [iff_true_intro keysOk, true_and]
    change (if hasAdjacentDuplicate ((sortWritten pairs).map fun p : Written × Written => p.1.1) then
      (([], some (.invalidStructure .duplicateKey)) : Written) else _).2 = none ↔ _
    split_ifs with repeated
    · simp only [false_iff, not_and]
      intro distinct
      rw [hasAdjacentDuplicate_of_nodup (keysPerm.nodup_iff.mpr distinct)] at repeated
      exact absurd repeated Bool.false_ne_true
    · have strict := pairwise_strict_of_hasAdjacentDuplicate (sortWritten_keys_sorted pairs)
        (Bool.eq_false_iff.mpr repeated)
      have distinct : ((sortWritten pairs).map fun p => p.1.1).Nodup :=
        strict.imp fun {a b} before same => by simp [same, keyStrictlyBefore_irrefl] at before
      rw [andThen_ok_iff]
      change _ ∧ (writePairs (sortWritten pairs)).2 = none ↔ _
      rw [writePairs_ok_iff]
      simp only [true_and, keysPerm.nodup_iff.mp distinct]
      exact ⟨fun ok p member => ok p (perm.mem_iff.mpr member), fun ok p member => ok p (perm.mem_iff.mp member)⟩

theorem writeMap_of_ok {pairs : List (Written × Written)} (ok : (writeMap pairs).2 = none) :
    writeMap pairs = (head 5 pairs.length ++ (sortWritten pairs).flatMap fun p => p.1.1 ++ p.2.1, none) := by
  obtain ⟨keysOk, distinct, valuesOk⟩ := writeMap_ok_iff.mp ok
  have perm : (sortWritten pairs).Perm pairs := List.mergeSort_perm _ _
  have keyError : pairs.findSome? (fun (k, _) => k.2) = none :=
    List.findSome?_eq_none_iff.mpr fun p member => by simpa using keysOk p member
  have apart : hasAdjacentDuplicate ((sortWritten pairs).map fun p => p.1.1) = false :=
    hasAdjacentDuplicate_of_nodup ((perm.map _).nodup_iff.mpr distinct)
  unfold writeMap
  rw [keyError]
  change (if hasAdjacentDuplicate ((sortWritten pairs).map fun p : Written × Written => p.1.1) then
    (([], some (.invalidStructure .duplicateKey)) : Written) else _) = _
  rw [apart, if_neg Bool.false_ne_true, andThen_ok]
  change (_ ++ (writePairs (sortWritten pairs)).1, (writePairs (sortWritten pairs)).2) = _
  rw [writePairs_of_ok fun p member => valuesOk p (perm.mem_iff.mp member)]

end Cbor

namespace Value

/-- What the writer checks of a document at its top level: a double is not NaN, and the keys of a map
have distinct encodings. -/
def writableHere : Value → Bool
  | .float x => !x.isNaN
  | .map entries => decide (entries.map fun e => (Cbor.write e.1).1).Nodup
  | _ => true

/-- A document the canonical writer accepts: no NaN anywhere, and no map, at any depth, with two keys of
one encoding. -/
def Encodable (v : Value) : Prop := v.every writableHere = true

instance : DecidablePred Encodable := fun v => inferInstanceAs (Decidable (v.every writableHere = true))

theorem encodable_array {items : List Value} : (Value.array items).Encodable ↔ ∀ x ∈ items, x.Encodable := by
  simp [Encodable, every_array, writableHere]

theorem encodable_map {entries : List (Value × Value)} :
    (Value.map entries).Encodable ↔ (entries.map fun e => (Cbor.write e.1).1).Nodup ∧
      ∀ e ∈ entries, e.1.Encodable ∧ e.2.Encodable := by
  simp [Encodable, every_map, writableHere]

end Value

namespace Cbor

/-- The writer fails exactly on a NaN or on a map with two keys of one encoding. -/
theorem write_ok_iff (v : Value) : (write v).2 = none ↔ v.Encodable := by
  induction v with
  | null => simp [write, Value.Encodable, Value.every, Value.writableHere]
  | bool b => cases b <;> simp [write, Value.Encodable, Value.every, Value.writableHere]
  | int n => simp [write, Value.Encodable, Value.every, Value.writableHere]
  | float x =>
    by_cases nan : x.isNaN = true
    · simp [write, nan, Value.Encodable, Value.every, Value.writableHere]
    · simp [write, nan, Value.Encodable, Value.every, Value.writableHere]
  | bytes bs => simp [write, Value.Encodable, Value.every, Value.writableHere]
  | text s => simp [write, Value.Encodable, Value.every, Value.writableHere]
  | array items ih =>
    rw [write, andThen_ok_iff, writeItems_ok_iff, Value.encodable_array]
    exact ⟨fun ok x member => (ih x member).mp (ok.2 x member),
      fun ok => ⟨rfl, fun x member => (ih x member).mpr (ok x member)⟩⟩
  | map entries ih =>
    rw [write, writeEntries_eq, writeMap_ok_iff, Value.encodable_map]
    simp only [List.mem_map, forall_exists_index, and_imp, forall_apply_eq_imp_iff₂, List.map_map]
    constructor
    · rintro ⟨keysOk, distinct, valuesOk⟩
      exact ⟨distinct, fun e member => ⟨(ih e member).1.mp (keysOk e member), (ih e member).2.mp (valuesOk e member)⟩⟩
    · rintro ⟨distinct, inner⟩
      exact ⟨fun e member => (ih e member).1.mpr (inner e member).1, distinct,
        fun e member => (ih e member).2.mpr (inner e member).2⟩

/-- The pairs of a map in the order the writer writes them: by the encoding of the key, shorter first,
then bytewise. -/
def sortByEncodedKey (entries : List (Value × Value)) : List (Value × Value) :=
  entries.mergeSort fun a b => keyBefore (write a.1).1 (write b.1).1

theorem sortWritten_map (entries : List (Value × Value)) :
    sortWritten (entries.map fun p => (write p.1, write p.2)) =
      (sortByEncodedKey entries).map fun p => (write p.1, write p.2) := by
  unfold sortWritten sortByEncodedKey
  rw [List.map_mergeSort]
  intro a _ b _
  rfl

theorem write_map_of_encodable {entries : List (Value × Value)} (encodable : (Value.map entries).Encodable) :
    write (.map entries) =
      (head 5 entries.length ++ (sortByEncodedKey entries).flatMap fun p => (write p.1).1 ++ (write p.2).1, none) := by
  have ok := (write_ok_iff _).mpr encodable
  rw [write, writeEntries_eq] at ok ⊢
  rw [writeMap_of_ok ok, sortWritten_map, List.flatMap_map, List.length_map]

/-- The writer's order of the keys of an encodable map is strict. -/
theorem sortByEncodedKey_strict {entries : List (Value × Value)} (encodable : (Value.map entries).Encodable) :
    (sortByEncodedKey entries).Pairwise fun a b => keyStrictlyBefore (write a.1).1 (write b.1).1 = true := by
  have sorted : (sortByEncodedKey entries).Pairwise fun a b => keyBefore (write a.1).1 (write b.1).1 = true :=
    List.pairwise_mergeSort (fun a b c => keyBefore_trans (write a.1).1 (write b.1).1 (write c.1).1)
      (fun a b => keyBefore_total (write a.1).1 (write b.1).1) entries
  have perm : (sortByEncodedKey entries).Perm entries := List.mergeSort_perm _ _
  have distinct : ((sortByEncodedKey entries).map fun e => (write e.1).1).Nodup :=
    (perm.map _).nodup_iff.mpr (Value.encodable_map.mp encodable).1
  exact List.pairwise_map.mp (pairwise_strict_of_nodup (List.pairwise_map.mpr sorted) distinct)

end Cbor

end GameVault
