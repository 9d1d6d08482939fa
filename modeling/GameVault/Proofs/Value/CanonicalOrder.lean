import Mathlib
import GameVault.Proofs.Value.QueryOrder
import GameVault.Proofs.Entity.ReadBack
import GameVault.Proofs.Value.KeyOrder

namespace GameVault.Value

theorem canonicalCmp_of_majorType_ne {a b : Value} (differ : a.majorType ≠ b.majorType) :
    canonicalCmp a b = compare a.majorType b.majorType := by
  cases a <;> cases b
  case int.int x y =>
    rw [canonicalCmp, if_neg]
    intro sign
    exact differ (by simp only [majorType, sign])
  all_goals simp_all [canonicalCmp, majorType]

theorem canonicalCmp_eq_then (a b : Value) :
    canonicalCmp a b = (compare a.majorType b.majorType).then (canonicalCmp a b) := by
  by_cases same : a.majorType = b.majorType
  · rw [same, @Std.ReflCmp.compare_self Nat compare _ b.majorType]
    rfl
  · rw [canonicalCmp_of_majorType_ne same]
    cases compare a.majorType b.majorType <;> rfl

theorem bytes_of_majorType {v : Value} (major : v.majorType = 2) : ∃ bs, v = .bytes bs := by
  cases v <;> simp_all [majorType]
  split at major <;> omega

theorem text_of_majorType {v : Value} (major : v.majorType = 3) : ∃ s, v = .text s := by
  cases v <;> simp_all [majorType]
  split at major <;> omega

theorem array_of_majorType {v : Value} (major : v.majorType = 4) : ∃ xs, v = .array xs := by
  cases v <;> simp_all [majorType]
  split at major <;> omega

theorem map_of_majorType {v : Value} (major : v.majorType = 5) : ∃ es, v = .map es := by
  cases v <;> simp_all [majorType]
  split at major <;> omega

theorem simple_of_majorType {v : Value} (major : v.majorType = 7) :
    v = .null ∨ (∃ c, v = .bool c) ∨ ∃ x, v = .float x := by
  cases v with
  | null => exact .inl rfl
  | bool c => exact .inr (.inl ⟨c, rfl⟩)
  | float x => exact .inr (.inr ⟨x, rfl⟩)
  | int n => simpa [major] using majorType_int_le n
  | _ => simp [majorType] at major

theorem canonicalCmp_simple {a b : Value} (simple : a.majorType = 7) (simple' : b.majorType = 7) :
    canonicalCmp a b = comparePairs a.simpleRank b.simpleRank := by
  rcases simple_of_majorType simple with rfl | ⟨c, rfl⟩ | ⟨x, rfl⟩ <;>
    rcases simple_of_majorType simple' with rfl | ⟨d, rfl⟩ | ⟨y, rfl⟩ <;> rfl

/-- Pairs in the canonical order: keys first, then values. -/
def canonicalPairCmp (p q : Value × Value) : Ordering := (canonicalCmp p.1 q.1).then (canonicalCmp p.2 q.2)

theorem canonicalItems_eq_compareLex {xs ys : List Value} (sameLength : xs.length = ys.length) :
    canonicalItems xs ys = xs.compareLex canonicalCmp ys := by
  induction xs generalizing ys with
  | nil =>
    cases ys with
    | nil => rfl
    | cons => simp at sameLength
  | cons x xs ih =>
    cases ys with
    | nil => simp at sameLength
    | cons y ys => rw [canonicalItems, List.compareLex_cons_cons, ih (by simpa using sameLength)]

theorem canonicalEntries_eq_compareLex {es fs : List (Value × Value)} (sameLength : es.length = fs.length) :
    canonicalEntries es fs = es.compareLex canonicalPairCmp fs := by
  induction es generalizing fs with
  | nil =>
    cases fs with
    | nil => rfl
    | cons => simp at sameLength
  | cons e es ih =>
    cases fs with
    | nil => simp at sameLength
    | cons f fs => rw [canonicalEntries, List.compareLex_cons_cons, ih (by simpa using sameLength)]; rfl

theorem then_of_sameLength {α : Type} (xs ys : List α) {o o' : Ordering}
    (agree : xs.length = ys.length → o = o') :
    (compare xs.length ys.length).then o = (compare xs.length ys.length).then o' := by
  by_cases sameLength : xs.length = ys.length
  · rw [agree sameLength]
  · rcases Nat.lt_or_gt_of_ne sameLength with shorter | longer
    · rw [Nat.compare_eq_lt.mpr shorter, Ordering.lt_then, Ordering.lt_then]
    · rw [Nat.compare_eq_gt.mpr longer, Ordering.gt_then, Ordering.gt_then]

theorem canonicalCmp_array (xs ys : List Value) :
    canonicalCmp (.array xs) (.array ys) = (compare xs.length ys.length).then (xs.compareLex canonicalCmp ys) :=
  then_of_sameLength xs ys canonicalItems_eq_compareLex

theorem canonicalCmp_map (es fs : List (Value × Value)) :
    canonicalCmp (.map es) (.map fs) = (compare es.length fs.length).then (es.compareLex canonicalPairCmp fs) :=
  then_of_sameLength es fs canonicalEntries_eq_compareLex

theorem canonicalCmp_text (s t : String) :
    canonicalCmp (.text s) (.text t) =
      (compare s.utf8ByteSize t.utf8ByteSize).then (s.toUTF8.toList.compareLex compare t.toUTF8.toList) := by
  rw [canonicalCmp, compareBytes_eq_compareLex]

theorem canonicalCmp_bytes (bs cs : List UInt8) :
    canonicalCmp (.bytes bs) (.bytes cs) = (compare bs.length cs.length).then (bs.compareLex compare cs) := by
  rw [canonicalCmp, compareBytes_eq_compareLex]

theorem swap_then_compare {β : Type} [Ord β] [Std.OrientedOrd β] (x y : β) {o o' : Ordering}
    (swapped : o' = o.swap) : (compare y x).then o' = ((compare x y).then o).swap := by
  rw [Ordering.swap_then, swapped, compare_swap_of_oriented x y]

theorem canonicalCmp_swap_of_majorType {a b : Value}
    (same : a.majorType = b.majorType → canonicalCmp b a = (canonicalCmp a b).swap) :
    canonicalCmp b a = (canonicalCmp a b).swap := by
  by_cases typed : a.majorType = b.majorType
  · exact same typed
  · rw [canonicalCmp_of_majorType_ne typed, canonicalCmp_of_majorType_ne (Ne.symm typed)]
    exact compare_swap_of_oriented _ _

/-- Swapping the values swaps the outcome, for every two values. -/
theorem canonicalCmp_swap (a b : Value) : canonicalCmp b a = (canonicalCmp a b).swap := by
  induction a generalizing b with
  | int n =>
    refine canonicalCmp_swap_of_majorType fun same => ?_
    obtain ⟨m, rfl⟩ := int_of_majorType_le (same ▸ majorType_int_le n)
    rw [canonicalCmp_int, canonicalCmp_int]
    exact compare_swap_of_oriented _ _
  | bytes bs =>
    refine canonicalCmp_swap_of_majorType fun same => ?_
    obtain ⟨cs, rfl⟩ := bytes_of_majorType same.symm
    rw [canonicalCmp_bytes, canonicalCmp_bytes]
    exact swap_then_compare _ _ (compareLex_swap fun x _ y _ => compare_swap_of_oriented x y)
  | text s =>
    refine canonicalCmp_swap_of_majorType fun same => ?_
    obtain ⟨t, rfl⟩ := text_of_majorType same.symm
    rw [canonicalCmp_text, canonicalCmp_text]
    exact swap_then_compare _ _ (compareLex_swap fun x _ y _ => compare_swap_of_oriented x y)
  | array xs ih =>
    refine canonicalCmp_swap_of_majorType fun same => ?_
    obtain ⟨ys, rfl⟩ := array_of_majorType same.symm
    rw [canonicalCmp_array, canonicalCmp_array]
    exact swap_then_compare _ _ (compareLex_swap fun x member y _ => ih x member y)
  | map es ih =>
    refine canonicalCmp_swap_of_majorType fun same => ?_
    obtain ⟨fs, rfl⟩ := map_of_majorType same.symm
    rw [canonicalCmp_map, canonicalCmp_map]
    refine swap_then_compare _ _ (compareLex_swap fun p member q _ => ?_)
    rw [canonicalPairCmp, canonicalPairCmp, Ordering.swap_then, (ih p member).1 q.1, (ih p member).2 q.2]
  | null | bool _ | float _ =>
    refine canonicalCmp_swap_of_majorType fun same => ?_
    rw [canonicalCmp_simple same.symm rfl, canonicalCmp_simple rfl same.symm, comparePairs, comparePairs]
    exact swap_then_compare _ _ (compare_swap_of_oriented _ _)

theorem chains_of_majorType {a b c : Value}
    (same : a.majorType = b.majorType → b.majorType = c.majorType →
      Chains (canonicalCmp a b) (canonicalCmp b c) (canonicalCmp a c)) :
    Chains (canonicalCmp a b) (canonicalCmp b c) (canonicalCmp a c) := by
  rw [canonicalCmp_eq_then a b, canonicalCmp_eq_then b c, canonicalCmp_eq_then a c]
  exact (chains_of_transCmp compare _ _ _).then fun ab bc =>
    same (Std.LawfulEqCmp.eq_of_compare ab) (Std.LawfulEqCmp.eq_of_compare bc)

theorem chains_lengthThenLex {α : Type} {cmp : α → α → Ordering} {xs ys zs : List α}
    (each : ∀ x ∈ xs, ∀ y ∈ ys, ∀ z ∈ zs, Chains (cmp x y) (cmp y z) (cmp x z)) :
    Chains ((compare xs.length ys.length).then (xs.compareLex cmp ys))
      ((compare ys.length zs.length).then (ys.compareLex cmp zs))
      ((compare xs.length zs.length).then (xs.compareLex cmp zs)) :=
  (chains_of_transCmp compare _ _ _).then fun _ _ => chains_compareLex each

/-- The canonical order chains on every three values: it is a total preorder. -/
theorem chains_canonicalCmp (a b c : Value) : Chains (canonicalCmp a b) (canonicalCmp b c) (canonicalCmp a c) := by
  induction a generalizing b c with
  | int n =>
    refine chains_of_majorType fun same same' => ?_
    obtain ⟨m, rfl⟩ := int_of_majorType_le (same ▸ majorType_int_le n)
    obtain ⟨k, rfl⟩ := int_of_majorType_le (same' ▸ majorType_int_le m)
    rw [canonicalCmp_int, canonicalCmp_int, canonicalCmp_int]
    exact chains_of_transCmp compare _ _ _
  | bytes bs =>
    refine chains_of_majorType fun same same' => ?_
    obtain ⟨cs, rfl⟩ := bytes_of_majorType same.symm
    obtain ⟨ds, rfl⟩ := bytes_of_majorType (same.trans same').symm
    rw [canonicalCmp_bytes, canonicalCmp_bytes, canonicalCmp_bytes]
    exact chains_lengthThenLex fun x _ y _ z _ => chains_of_transCmp compare x y z
  | text s =>
    refine chains_of_majorType fun same same' => ?_
    obtain ⟨t, rfl⟩ := text_of_majorType same.symm
    obtain ⟨u, rfl⟩ := text_of_majorType (same.trans same').symm
    rw [canonicalCmp_text, canonicalCmp_text, canonicalCmp_text, Cbor.utf8ByteSize_eq_length,
      Cbor.utf8ByteSize_eq_length, Cbor.utf8ByteSize_eq_length]
    exact chains_lengthThenLex fun x _ y _ z _ => chains_of_transCmp compare x y z
  | array xs ih =>
    refine chains_of_majorType fun same same' => ?_
    obtain ⟨ys, rfl⟩ := array_of_majorType same.symm
    obtain ⟨zs, rfl⟩ := array_of_majorType (same.trans same').symm
    rw [canonicalCmp_array, canonicalCmp_array, canonicalCmp_array]
    exact chains_lengthThenLex fun x mx y _ z _ => ih x mx y z
  | map es ih =>
    refine chains_of_majorType fun same same' => ?_
    obtain ⟨fs, rfl⟩ := map_of_majorType same.symm
    obtain ⟨gs, rfl⟩ := map_of_majorType (same.trans same').symm
    rw [canonicalCmp_map, canonicalCmp_map, canonicalCmp_map]
    exact chains_lengthThenLex fun p mp q _ r _ => ((ih p mp).1 q.1 r.1).then fun _ _ => (ih p mp).2 q.2 r.2
  | null | bool _ | float _ =>
    refine chains_of_majorType fun same same' => ?_
    have simple' : c.majorType = 7 := (same.trans same').symm
    rw [canonicalCmp_simple rfl same.symm, canonicalCmp_simple same.symm simple', canonicalCmp_simple rfl simple',
      comparePairs, comparePairs, comparePairs]
    exact (chains_of_transCmp compare _ _ _).then fun _ _ => chains_of_transCmp compare _ _ _

/-- Whether a value is other than a NaN. -/
def nanFreeHere : Value → Bool
  | .float x => !x.isNaN
  | _ => true

/-- A document with no NaN at any depth, map keys included. -/
def NaNFree (v : Value) : Prop := v.every nanFreeHere = true

instance : DecidablePred NaNFree := fun v => inferInstanceAs (Decidable (v.every nanFreeHere = true))

theorem nanFree_array {items : List Value} : (Value.array items).NaNFree ↔ ∀ x ∈ items, x.NaNFree := by
  simp [NaNFree, every_array, nanFreeHere]

theorem nanFree_map {entries : List (Value × Value)} :
    (Value.map entries).NaNFree ↔ ∀ p ∈ entries, p.1.NaNFree ∧ p.2.NaNFree := by
  simp [NaNFree, every_map, nanFreeHere]

/-- Integers of one canonical rank are one integer. -/
theorem intRank_inj {a b : Int64} (same : intRank a = intRank b) : a = b := by
  have argument := intArgument_lt a
  have argument' := intArgument_lt b
  have head := headLength_le (intArgument a)
  have head' := headLength_le (intArgument b)
  have major := majorType_int_le a
  have major' := majorType_int_le b
  have digits : intArgument a = intArgument b ∧ (Value.int a).majorType = (Value.int b).majorType := by
    rw [intRank, intRank] at same
    omega
  apply Int64.toInt_inj.mp
  simp only [intArgument, majorType] at digits
  obtain ⟨argumentsAgree, signsAgree⟩ := digits
  split_ifs at argumentsAgree signsAgree <;> omega

/-- Two lists that the lexicographic comparison calls equal are related element by element. -/
theorem forall₂_of_compareLex_eq {α : Type} {cmp : α → α → Ordering} {R : α → α → Prop} {xs ys : List α}
    (each : ∀ x ∈ xs, ∀ y ∈ ys, cmp x y = .eq → R x y) (same : xs.compareLex cmp ys = .eq) :
    List.Forall₂ R xs ys := by
  induction xs generalizing ys with
  | nil =>
    cases ys with
    | nil => exact .nil
    | cons => simp [List.compareLex_nil_cons] at same
  | cons x xs ih =>
    cases ys with
    | nil => simp [List.compareLex_cons_nil] at same
    | cons y ys =>
      rw [List.compareLex_cons_cons, Ordering.then_eq_eq] at same
      exact .cons (each x (by simp) y (by simp) same.1)
        (ih (fun x' mx y' my => each x' (by simp [mx]) y' (by simp [my])) same.2)

/-- Doubles with one canonical form, neither of them NaN, are numerically equal. -/
theorem ieeeEq_of_canonical_eq {x y : Double} (notNaN : x.isNaN = false) (notNaN' : y.isNaN = false)
    (same : x.canonical.bits = y.canonical.bits) : x.ieeeEq y = true := by
  unfold Double.canonical at same
  simp only [Double.ieeeEq, notNaN, notNaN', Bool.not_false, Bool.true_and, Bool.or_eq_true, beq_iff_eq,
    Bool.and_eq_true]
  split_ifs at same with zero zero'
  · exact .inr ⟨zero, zero'⟩
  · exact absurd (by simp [Double.isZero, ← same, Double.zero]) zero'
  · exact absurd (by simp [Double.isZero, same, Double.zero]) zero
  · exact .inl same

/-- Null, the booleans and the doubles other than NaN of one rank are equal documents: the encoded
first byte tells the kinds and the booleans apart, and a double's canonical bits tell its number. -/
theorem beq_of_simpleRank_eq {a b : Value} (simple : a.majorType = 7) (simple' : b.majorType = 7)
    (free : a.nanFreeHere = true) (free' : b.nanFreeHere = true) (same : a.simpleRank = b.simpleRank) :
    beq a b = true := by
  rcases simple_of_majorType simple with rfl | ⟨c, rfl⟩ | ⟨x, rfl⟩ <;>
    rcases simple_of_majorType simple' with rfl | ⟨d, rfl⟩ | ⟨y, rfl⟩
  · rfl
  · cases d <;> simp [simpleRank] at same
  · simp [simpleRank] at same
  · cases c <;> simp [simpleRank] at same
  · cases c <;> cases d <;> simp_all [simpleRank, beq]
  · cases c <;> simp [simpleRank] at same
  · simp [simpleRank] at same
  · cases d <;> simp [simpleRank] at same
  · have notNaN : x.isNaN = false := by simpa [nanFreeHere] using free
    have notNaN' : y.isNaN = false := by simpa [nanFreeHere] using free'
    simp only [simpleRank, Prod.mk.injEq, true_and] at same
    exact ieeeEq_of_canonical_eq notNaN notNaN' (UInt64.toNat_inj.mp same)

theorem majorType_eq_of_canonicalCmp_eq {a b : Value} (same : canonicalCmp a b = .eq) :
    a.majorType = b.majorType := by
  rw [canonicalCmp_eq_then, Ordering.then_eq_eq] at same
  exact Std.LawfulEqCmp.eq_of_compare same.1

/-- What the canonical order calls equal is an equal document, where no NaN is involved. -/
theorem beq_of_canonicalCmp_eq {a b : Value} (free : a.NaNFree) (free' : b.NaNFree)
    (same : canonicalCmp a b = .eq) : beq a b = true := by
  have typed := majorType_eq_of_canonicalCmp_eq same
  induction a generalizing b with
  | int n =>
    obtain ⟨m, rfl⟩ := int_of_majorType_le (typed ▸ majorType_int_le n)
    rw [canonicalCmp_int] at same
    simp [beq, intRank_inj (Std.LawfulEqCmp.eq_of_compare same)]
  | bytes bs =>
    obtain ⟨cs, rfl⟩ := bytes_of_majorType typed.symm
    rw [canonicalCmp, Ordering.then_eq_eq] at same
    simp [beq, compareBytes_eq_iff.mp same.2]
  | text s =>
    obtain ⟨t, rfl⟩ := text_of_majorType typed.symm
    rw [canonicalCmp, Ordering.then_eq_eq] at same
    simp [beq, Cbor.text_inj_of_utf8 (compareBytes_eq_iff.mp same.2)]
  | array xs ih =>
    obtain ⟨ys, rfl⟩ := array_of_majorType typed.symm
    rw [canonicalCmp_array, Ordering.then_eq_eq] at same
    show beqItems xs ys = true
    refine beqItems_iff.mpr (forall₂_of_compareLex_eq (fun x mx y my tied => ?_) same.2)
    exact ih x mx (nanFree_array.mp free x mx) (nanFree_array.mp free' y my) tied
      (majorType_eq_of_canonicalCmp_eq tied)
  | map es ih =>
    obtain ⟨fs, rfl⟩ := map_of_majorType typed.symm
    rw [canonicalCmp_map, Ordering.then_eq_eq] at same
    show beqEntries es fs = true
    refine beqEntries_iff.mpr (forall₂_of_compareLex_eq (fun p mp q mq tied => ?_) same.2)
    rw [canonicalPairCmp, Ordering.then_eq_eq] at tied
    obtain ⟨keyTied, valueTied⟩ := tied
    exact ⟨(ih p mp).1 (nanFree_map.mp free p mp).1 (nanFree_map.mp free' q mq).1 keyTied
        (majorType_eq_of_canonicalCmp_eq keyTied),
      (ih p mp).2 (nanFree_map.mp free p mp).2 (nanFree_map.mp free' q mq).2 valueTied
        (majorType_eq_of_canonicalCmp_eq valueTied)⟩
  | null | bool _ | float _ =>
    rw [canonicalCmp_simple rfl typed.symm, comparePairs, Ordering.then_eq_eq] at same
    exact beq_of_simpleRank_eq rfl typed.symm (every_self free) (every_self free')
      (Prod.ext (Std.LawfulEqCmp.eq_of_compare same.1) (Std.LawfulEqCmp.eq_of_compare same.2))

theorem bne_gt_eq_isLE (o : Ordering) : (o != .gt) = o.isLE := by
  cases o <;> rfl

theorem keyLe_trans (p q r : Value × Value) (pq : (canonicalCmp p.1 q.1 != .gt) = true)
    (qr : (canonicalCmp q.1 r.1 != .gt) = true) : (canonicalCmp p.1 r.1 != .gt) = true := by
  rw [bne_gt_eq_isLE] at pq qr ⊢
  exact (chains_canonicalCmp p.1 q.1 r.1).1 pq qr

theorem keyLe_total (p q : Value × Value) :
    (canonicalCmp p.1 q.1 != .gt || canonicalCmp q.1 p.1 != .gt) = true := by
  rw [canonicalCmp_swap p.1 q.1]
  cases canonicalCmp p.1 q.1 <;> rfl

theorem sortEntries_pairwise (entries : List (Value × Value)) :
    (sortEntries entries).Pairwise fun p q => (canonicalCmp p.1 q.1 != .gt) = true :=
  List.pairwise_mergeSort keyLe_trans keyLe_total entries

theorem sortEntries_eq_insertionSort (entries : List (Value × Value)) :
    sortEntries entries = Sorting.insertionSort (fun p q => !(canonicalCmp q.1 p.1 != .gt)) entries :=
  Sorting.mergeSort_eq_insertionSort keyLe_total keyLe_trans entries

theorem sortEntries_perm (entries : List (Value × Value)) : (sortEntries entries).Perm entries :=
  List.mergeSort_perm entries _

theorem canonicalCmp_eq_of_le_le {a b : Value} (first : (canonicalCmp a b != .gt) = true)
    (second : (canonicalCmp b a != .gt) = true) : canonicalCmp a b = .eq := by
  rw [canonicalCmp_swap a b] at second
  cases tied : canonicalCmp a b <;> simp_all [Ordering.swap]

/-- Pairs whose keys are distinct documents without NaN sort to one list, whatever order they came
in: no two keys tie, so each sorted list is the only sorted arrangement of the pairs. -/
theorem sortEntries_perm_eq {ps qs : List (Value × Value)} (perm : ps.Perm qs) (free : ∀ p ∈ ps, p.1.NaNFree)
    (distinct : ps.Pairwise fun p q => beq p.1 q.1 = false) : sortEntries ps = sortEntries qs := by
  have symmetric : Std.Symm fun p q : Value × Value => beq p.1 q.1 = false :=
    ⟨fun p q differ => Bool.eq_false_iff.mpr fun same => by simp [beq_symm same] at differ⟩
  refine List.Perm.eq_of_pairwise (fun p q mp mq pq qp => ?_) (sortEntries_pairwise ps) (sortEntries_pairwise qs)
    ((sortEntries_perm ps).trans (perm.trans (sortEntries_perm qs).symm))
  have mp' := (sortEntries_perm ps).mem_iff.mp mp
  have mq' := perm.mem_iff.mpr ((sortEntries_perm qs).mem_iff.mp mq)
  have same := beq_of_canonicalCmp_eq (free p mp') (free q mq') (canonicalCmp_eq_of_le_le pq qp)
  by_contra differ
  simp [distinct.forall mp' mq' differ] at same

theorem transCmp_canonicalCmp : Std.TransCmp canonicalCmp :=
  { eq_swap := fun {a b} => canonicalCmp_swap b a
    isLE_trans := fun {a b c} => (chains_canonicalCmp a b c).1 }

end GameVault.Value
