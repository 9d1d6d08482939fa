import Mathlib
import GameVault.Proofs.Cbor.Canonical
import GameVault.Entity.Basic

namespace GameVault

open Value

theorem compare_toUInt8 {x y : Nat} (small : x < 256) (small' : y < 256) :
    compare x.toUInt8 y.toUInt8 = compare x y := by
  rcases Nat.lt_trichotomy x y with below | rfl | above
  · rw [compare_lt_iff_lt.mpr below]
    exact Std.compare_eq_lt.mpr (by simp [UInt8.lt_iff_toNat_lt, Nat.mod_eq_of_lt, small, small', below])
  · simp
  · rw [compare_gt_iff_gt.mpr above]
    exact Std.compare_eq_gt.mpr (by simp [UInt8.lt_iff_toNat_lt, Nat.mod_eq_of_lt, small, small', above])

/-- A number of two digits in a base compares as its digits, the high one first. -/
theorem compare_mul_add {base hi lo hi' lo' : Nat} (low : lo < base) (low' : lo' < base) :
    compare (hi * base + lo) (hi' * base + lo') = (compare hi hi').then (compare lo lo') := by
  rcases Nat.lt_trichotomy hi hi' with below | rfl | above
  · have smaller : hi * base + lo < hi' * base + lo' := by nlinarith
    simp [compare_lt_iff_lt.mpr below, compare_lt_iff_lt.mpr smaller]
  · rcases Nat.lt_trichotomy lo lo' with below | rfl | above
    · simp [compare_lt_iff_lt.mpr below, compare_lt_iff_lt.mpr (Nat.add_lt_add_left below _)]
    · simp
    · simp [compare_gt_iff_gt.mpr above, compare_gt_iff_gt.mpr (Nat.add_lt_add_left above _)]
  · have larger : hi' * base + lo' < hi * base + lo := by nlinarith
    simp [compare_gt_iff_gt.mpr above, compare_gt_iff_gt.mpr larger]

/-- Big-endian byte strings of one width compare as the numbers they hold. -/
theorem compareBytes_bigEndian (n a b : Nat) :
    compareBytes (Cbor.bigEndian n a) (Cbor.bigEndian n b) = compare (a % 256 ^ n) (b % 256 ^ n) := by
  induction n with
  | zero => simp [Cbor.bigEndian, compareBytes, Nat.mod_one]
  | succ n ih =>
    have split : ∀ v, v % 256 ^ (n + 1) = v / 256 ^ n % 256 * 256 ^ n + v % 256 ^ n := by
      intro v
      rw [Nat.pow_succ, Nat.mod_mul]
      ring
    rw [Cbor.bigEndian_succ, Cbor.bigEndian_succ, compareBytes, ih, split a, split b,
      compare_mul_add (Nat.mod_lt _ (by positivity)) (Nat.mod_lt _ (by positivity)),
      compare_toUInt8 (Nat.mod_lt _ (by decide)) (Nat.mod_lt _ (by decide))]

theorem compareBytes_append_left (pre x y : List UInt8) : compareBytes (pre ++ x) (pre ++ y) = compareBytes x y := by
  induction pre with
  | nil => rfl
  | cons b bs ih => simp [compareBytes, ih]

theorem mergeSort_pair {α : Type} (le : α → α → Bool) (a b : α) :
    [a, b].mergeSort le = if le a b then [a, b] else [b, a] := by
  rw [List.mergeSort]
  simp only [List.MergeSort.Internal.splitInTwo_fst, List.MergeSort.Internal.splitInTwo_snd, List.length_cons,
    List.length_nil]
  norm_num [List.take, List.drop, List.cons_merge_cons]

namespace Cbor

theorem length_head (major n : Nat) : (head major n).length = headLength n := by
  unfold head headLength
  split_ifs <;> first | rfl | omega

theorem headLength_mono {a b : Nat} (le : a ≤ b) : headLength a ≤ headLength b := by
  unfold headLength
  split_ifs <;> omega

theorem lt_pow_argumentWidth {n : Nat} (wide : 24 ≤ n) (fits : n < 2 ^ 64) : n < 256 ^ argumentWidth n := by
  unfold argumentWidth
  split_ifs <;> omega

/-- Two shortest heads of one major type and one length compare as their arguments. -/
theorem compareBytes_head {major a b : Nat} (small : major < 8) (fits : a < 2 ^ 64) (fits' : b < 2 ^ 64)
    (same : headLength a = headLength b) : compareBytes (head major a) (head major b) = compare a b := by
  by_cases narrow : a < 24
  · have narrow' : b < 24 := by
      unfold headLength at same
      split_ifs at same <;> omega
    have first : compare (major * 32 + a).toUInt8 (major * 32 + b).toUInt8 = compare a b := by
      rw [compare_toUInt8 (by omega) (by omega), @compare_mul_add 32 major a major b (by omega) (by omega)]
      simp
    simp only [head, if_pos narrow, if_pos narrow', compareBytes, first]
    cases compare a b <;> rfl
  · have wide' : 24 ≤ b := by
      unfold headLength at same
      split_ifs at same <;> omega
    have info : headInfo a = headInfo b := by
      unfold headLength at same
      unfold headInfo
      split_ifs at same ⊢ <;> omega
    have width : argumentWidth a = argumentWidth b := by
      unfold headLength at same
      unfold argumentWidth
      split_ifs at same ⊢ <;> omega
    have low : a < 256 ^ argumentWidth b := width ▸ lt_pow_argumentWidth (Nat.le_of_not_lt narrow) fits
    have low' : b < 256 ^ argumentWidth b := lt_pow_argumentWidth wide' fits'
    rw [head_eq, head_eq, info, width]
    simp [compareBytes, compareBytes_bigEndian, Nat.mod_eq_of_lt low, Nat.mod_eq_of_lt low']

/-- The order of encoded map keys, which the writer sorts by and the reader checks: the shorter
encoding first, then bytewise. -/
def encodedCmp (x y : List UInt8) : Ordering := (compare x.length y.length).then (compareBytes x y)

theorem keyBefore_eq (x y : List UInt8) : keyBefore x y = (encodedCmp x y != .gt) := by
  rcases Nat.lt_trichotomy x.length y.length with shorter | same | longer
  · simp [keyBefore, encodedCmp, shorter, compare_lt_iff_lt.mpr shorter]
  · simp [keyBefore, encodedCmp, same]
  · simp [keyBefore, encodedCmp, compare_gt_iff_gt.mpr longer, Nat.not_lt.mpr longer.le, Nat.ne_of_gt longer]

/-- Shortest heads of one major type are ordered by the length of the head, then by the argument. -/
theorem encodedCmp_head {major a b : Nat} (small : major < 8) (fits : a < 2 ^ 64) (fits' : b < 2 ^ 64) :
    encodedCmp (head major a) (head major b) = comparePairs (headLength a, a) (headLength b, b) := by
  unfold encodedCmp comparePairs
  rw [length_head, length_head]
  by_cases same : headLength a = headLength b
  · rw [same, compareBytes_head small fits fits' same]
  · cases order : compare (headLength a) (headLength b)
    · rfl
    · exact absurd (compare_eq_iff_eq.mp order) same
    · rfl

/-- Strings of one major type are ordered by their length, then bytewise. -/
theorem encodedCmp_string (major : Nat) (x y : List UInt8) :
    encodedCmp (head major x.length ++ x) (head major y.length ++ y) = (compare x.length y.length).then (compareBytes x y) := by
  unfold encodedCmp
  simp only [List.length_append, length_head]
  rcases Nat.lt_trichotomy x.length y.length with shorter | same | longer
  · have grows := headLength_mono shorter.le
    have longer : headLength x.length + x.length < headLength y.length + y.length := by omega
    simp [compare_lt_iff_lt.mpr shorter, compare_lt_iff_lt.mpr longer]
  · rw [same, compareBytes_append_left]
    simp
  · have grows := headLength_mono longer.le
    have shorter : headLength y.length + y.length < headLength x.length + x.length := by omega
    simp [compare_gt_iff_gt.mpr longer, compare_gt_iff_gt.mpr shorter]

end Cbor

namespace Value

open Cbor

/-- Keys the canonical order places as the writer does among keys of their own major type: anything
but arrays, maps and NaN. -/
def flatKey : Value → Bool
  | .array _ | .map _ => false
  | .float x => !x.isNaN
  | _ => true

theorem majorType_int_le (n : Int64) : (Value.int n).majorType ≤ 1 := by
  simp only [majorType]
  split_ifs <;> decide

theorem int_of_majorType_le {v : Value} (small : v.majorType ≤ 1) : ∃ n, v = .int n := by
  cases v with
  | int n => exact ⟨n, rfl⟩
  | _ => simp [majorType] at small

/-- The values of major type `7`: null, the booleans and the doubles. -/
theorem simple_cases {v : Value} (flat : v.flatKey = true) (simple : v.majorType = 7) :
    v = .null ∨ (∃ c, v = .bool c) ∨ ∃ x, v = .float x ∧ x.isNaN = false := by
  cases v with
  | null => exact .inl rfl
  | bool c => exact .inr (.inl ⟨c, rfl⟩)
  | float x => exact .inr (.inr ⟨x, rfl, by simpa [flatKey] using flat⟩)
  | int n => simpa [simple] using majorType_int_le n
  | _ => simp [majorType] at simple

theorem canonicalCmp_eq_encodedCmp_simple {a b : Value} (flat : a.flatKey = true) (flat' : b.flatKey = true)
    (simple : a.majorType = 7) (simple' : b.majorType = 7) : canonicalCmp a b = encodedCmp (write a).1 (write b).1 := by
  rcases simple_cases flat simple with rfl | ⟨c, rfl⟩ | ⟨x, rfl, notNaN⟩ <;>
    rcases simple_cases flat' simple' with rfl | ⟨d, rfl⟩ | ⟨y, rfl, notNaN'⟩
  all_goals (try cases c) <;> (try cases d) <;>
    simp [canonicalCmp, majorType, simpleRank, comparePairs, write, encodedCmp, compareBytes, compareBytes_bigEndian,
      Nat.compare_eq_ite_lt, Nat.mod_eq_of_lt (UInt64.toNat_lt _), *] <;> rfl

/-- On keys of one major type that are neither arrays, maps nor NaN, the canonical order is the order
of their encodings: the shorter first, then bytewise. -/
theorem canonicalCmp_eq_encodedCmp {a b : Value} (flat : a.flatKey = true) (flat' : b.flatKey = true)
    (same : a.majorType = b.majorType) : canonicalCmp a b = encodedCmp (write a).1 (write b).1 := by
  cases a with
  | int x =>
    obtain ⟨y, rfl⟩ := int_of_majorType_le (same ▸ majorType_int_le x)
    ·
      have sign : (0 ≤ x.toInt) = (0 ≤ y.toInt) := by
        simp only [majorType] at same
        apply propext
        split_ifs at same <;> constructor <;> intro <;> omega
      have small : (Value.int y).majorType < 8 := lt_of_le_of_lt (majorType_int_le y) (by decide)
      have fits := lt_of_le_of_lt (intArgument_le x) (by decide : maxIntArgument < 2 ^ 64)
      have fits' := lt_of_le_of_lt (intArgument_le y) (by decide : maxIntArgument < 2 ^ 64)
      have written : ∀ n : Int64, (write (.int n)).1 = head (Value.int n).majorType (intArgument n) := fun _ => rfl
      simp only [canonicalCmp, if_pos sign]
      rw [written, written, same, encodedCmp_head small fits fits']
  | bytes x =>
    cases b with
    | bytes y => exact (encodedCmp_string 2 x y).symm
    | int y => exact absurd (same ▸ majorType_int_le y : (Value.bytes x).majorType ≤ 1) (by simp [majorType])
    | _ => simp [majorType] at same
  | text x =>
    cases b with
    | text y =>
      simp only [canonicalCmp, write, utf8ByteSize_eq_length]
      exact (encodedCmp_string 3 _ _).symm
    | int y => exact absurd (same ▸ majorType_int_le y : (Value.text x).majorType ≤ 1) (by simp [majorType])
    | _ => simp [majorType] at same
  | array | map => cases flat
  | null | bool | float => exact canonicalCmp_eq_encodedCmp_simple flat flat' rfl (same.symm.trans rfl)

theorem reorder_of_flatKey {k : Value} (flat : k.flatKey = true) : reorder id k = k := by
  cases k <;> simp_all [flatKey, reorder]

/-- The pairs of a map sorted canonically, where its keys are of one major type and neither arrays,
maps nor NaN: the order the writer sorts them in. -/
theorem sortEntries_eq_sortByEncodedKey {ps : List (Value × Value)} (flat : ∀ p ∈ ps, p.1.flatKey = true)
    (oneMajor : ∀ p ∈ ps, ∀ q ∈ ps, p.1.majorType = q.1.majorType) : sortEntries ps = sortByEncodedKey ps := by
  have agree : ∀ p ∈ ps, ∀ q ∈ ps, (canonicalCmp p.1 q.1 != .gt) = keyBefore (write p.1).1 (write q.1).1 := by
    intro p member q member'
    rw [keyBefore_eq, canonicalCmp_eq_encodedCmp (flat p member) (flat q member') (oneMajor p member q member')]
  have sorted := @List.map_mergeSort _ _ (fun p q => canonicalCmp p.1 q.1 != .gt)
    (fun p q => keyBefore (write p.1).1 (write q.1).1) id ps agree
  rw [List.map_id, List.map_id] at sorted
  exact sorted

/-- A map built from pairs whose keys are of one major type and neither arrays, maps nor NaN is stored
in the order the writer sorts it in and the reader checks. The canonical order agrees with the order
of encoded keys on its keys, so sorting by either gives one list; and where its values are as the
reader returns them, the map reads back equal to itself. -/
theorem ofPairs_in_codec_order {ps : List (Value × Value)} (flat : ∀ p ∈ ps, p.1.flatKey = true)
    (oneMajor : ∀ p ∈ ps, ∀ q ∈ ps, p.1.majorType = q.1.majorType) :
    (∀ p ∈ ps, ∀ q ∈ ps, canonicalCmp p.1 q.1 = encodedCmp (write p.1).1 (write q.1).1) ∧
      sortEntries ps = sortByEncodedKey ps ∧
      ((ofPairs ps).Encodable → (ofPairs ps).WithinLimits → (∀ p ∈ ps, p.2.normalize = p.2) →
        ∃ bytes w, encode (ofPairs ps) = .ok bytes ∧ decode bytes = .ok w ∧ (w == ofPairs ps) = true) := by
  have sorted := sortEntries_eq_sortByEncodedKey flat oneMajor
  refine ⟨fun p member q member' => canonicalCmp_eq_encodedCmp (flat p member) (flat q member')
    (oneMajor p member q member'), sorted, fun encodable within normal => ?_⟩
  have kept : ((sortEntries ps).map fun p => (reorder id p.1, reorder id p.2)) = sortEntries ps := by
    refine (List.map_congr_left fun p member => ?_).trans (List.map_id _)
    have original := (List.mergeSort_perm _ _).mem_iff.mp member
    rw [reorder_of_flatKey (flat p original)]
    exact congrArg (Prod.mk p.1) (normal p original)
  have normalized : (ofPairs ps).normalize = ofPairs ps := by
    rw [Value.normalize, ofPairs, reorder_map, kept, sorted, sortByEncodedKey_of_sorted (sortByEncodedKey_sorted ps)]
  have read := reorder_canonical_beq_normalize encodable
  rw [normalized] at read
  exact ⟨_, _, encode_of_encodable encodable, decode_write encodable within, read⟩

/-- The fields of a role: text keys only. -/
theorem role_fields_in_codec_order :
    let ps := (Body.role "a" 1 0).fields
    (∀ p ∈ ps, p.1.flatKey = true) ∧ (∀ p ∈ ps, ∀ q ∈ ps, p.1.majorType = q.1.majorType) ∧
      ((∀ p ∈ ps, ∀ q ∈ ps, canonicalCmp p.1 q.1 = encodedCmp (write p.1).1 (write q.1).1) ∧
        sortEntries ps = sortByEncodedKey ps ∧
        ((ofPairs ps).Encodable → (ofPairs ps).WithinLimits → (∀ p ∈ ps, p.2.normalize = p.2) →
          ∃ bytes w, encode (ofPairs ps) = .ok bytes ∧ decode bytes = .ok w ∧ (w == ofPairs ps) = true)) :=
  ⟨by decide, by decide, ofPairs_in_codec_order (by decide) (by decide)⟩

/-- A bag holding the items `-1` and `24`. Its items map keeps `24` first, as the canonical order
has it; the writer puts `-1` first, and so does the map read back, which is not the map written. -/
theorem bag_items_read_back_reordered :
    let items := Value.ofPairs [(.int (-1), .int 1), (.int 24, .int 1)]
    (Body.bag [(-1, 1), (24, 1)]).fields = [(.text "items", items)] ∧
      canonicalCmp (.int 24) (.int (-1)) = .lt ∧ encodedCmp (write (.int 24)).1 (write (.int (-1))).1 = .gt ∧
      ∃ bytes w, encode items = .ok bytes ∧ decode bytes = .ok w ∧ (w == items) = false := by
  intro items
  have stored : items = .map [(.int 24, .int 1), (.int (-1), .int 1)] := by
    show Value.map (sortEntries _) = _
    rw [sortEntries, mergeSort_pair]
    rfl
  have encodable : items.Encodable := by
    rw [stored]
    decide
  have within : items.WithinLimits := by
    rw [stored]
    decide
  refine ⟨rfl, by decide, by decide, _, _, encode_of_encodable encodable, decode_write encodable within, ?_⟩
  rw [stored, reorder_map, sortByEncodedKey, List.map_cons, List.map_cons, List.map_nil, mergeSort_pair]
  rfl

end Value

end GameVault
