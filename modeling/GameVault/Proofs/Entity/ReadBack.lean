import Mathlib
import GameVault.Proofs.Entity.Document

namespace GameVault

open Value

theorem intArgument_lt (n : Int64) : intArgument n < 2 ^ 64 := by
  have low := Int64.le_toInt n
  have high := Int64.toInt_le n
  rw [Int64.toInt_maxValue] at high
  unfold intArgument
  split <;> omega

theorem headLength_le (n : Nat) : headLength n ≤ 9 := by
  unfold headLength
  split_ifs <;> omega

theorem compare_scaled {h₁ h₂ g₁ g₂ : Nat} (small₁ : g₁ < 2 ^ 64) (small₂ : g₂ < 2 ^ 64) :
    compare (h₁ * 2 ^ 64 + g₁) (h₂ * 2 ^ 64 + g₂) = (compare h₁ h₂).then (compare g₁ g₂) := by
  rcases Nat.lt_trichotomy h₁ h₂ with before | rfl | after
  · rw [Nat.compare_eq_lt.mpr before, Nat.compare_eq_lt.mpr (by omega), Ordering.lt_then]
  · rw [Nat.compare_eq_eq.mpr rfl, Ordering.eq_then]
    rcases Nat.lt_trichotomy g₁ g₂ with before | rfl | after
    · rw [Nat.compare_eq_lt.mpr before, Nat.compare_eq_lt.mpr (by omega)]
    · rw [Nat.compare_eq_eq.mpr rfl, Nat.compare_eq_eq.mpr rfl]
    · rw [Nat.compare_eq_gt.mpr after, Nat.compare_eq_gt.mpr (by omega)]
  · rw [Nat.compare_eq_gt.mpr after, Nat.compare_eq_gt.mpr (by omega), Ordering.gt_then]

namespace Value

/-- The place of an integer in the canonical order: its major type, then the length of its head,
then its argument. -/
def intRank (n : Int64) : Nat :=
  ((Value.int n).majorType * 2 ^ 64 + headLength (intArgument n)) * 2 ^ 64 + intArgument n

/-- Integers compare canonically as their ranks do. -/
theorem canonicalCmp_int (a b : Int64) : canonicalCmp (.int a) (.int b) = compare (intRank a) (intRank b) := by
  have argument₁ := intArgument_lt a
  have argument₂ := intArgument_lt b
  have head₁ := headLength_le (intArgument a)
  have head₂ := headLength_le (intArgument b)
  rw [canonicalCmp, intRank, intRank, compare_scaled argument₁ argument₂, compare_scaled (by omega) (by omega)]
  split_ifs with sameSign
  · have sameType : (Value.int a).majorType = (Value.int b).majorType := by
      simp only [majorType, sameSign]
    rw [sameType, Nat.compare_eq_eq.mpr rfl, Ordering.eq_then]
    rfl
  · have differ : (Value.int a).majorType ≠ (Value.int b).majorType := by
      simp only [majorType]
      split_ifs <;> simp_all
    rcases Nat.lt_or_gt_of_ne differ with before | after
    · rw [Nat.compare_eq_lt.mpr before, Ordering.lt_then, Ordering.lt_then]
    · rw [Nat.compare_eq_gt.mpr after, Ordering.gt_then, Ordering.gt_then]

end Value

namespace Value

/-- Whether a value is other than a double. -/
def notFloat : Value → Bool
  | .float _ => false
  | _ => true

/-- A document with no double at any depth, map keys included. -/
def FloatFree (v : Value) : Prop := v.every notFloat = true

theorem floatFree_array {items : List Value} : (Value.array items).FloatFree ↔ ∀ x ∈ items, x.FloatFree := by
  simp [FloatFree, every_array, notFloat]

theorem floatFree_map {entries : List (Value × Value)} :
    (Value.map entries).FloatFree ↔ ∀ p ∈ entries, p.1.FloatFree ∧ p.2.FloatFree := by
  simp [FloatFree, every_map, notFloat]

theorem beqItems_eq {items : List Value} (each : ∀ y ∈ items, ∀ x, beq x y = true → x = y) :
    ∀ xs, beqItems xs items = true → xs = items := by
  induction items with
  | nil => intro xs same; cases xs <;> simp_all [beqItems]
  | cons y ys ih =>
    intro xs same
    cases xs with
    | nil => simp [beqItems] at same
    | cons x rest =>
      simp only [beqItems, Bool.and_eq_true] at same
      rw [each y (List.mem_cons_self ..) x same.1,
        ih (fun z member => each z (List.mem_cons_of_mem _ member)) rest same.2]

theorem beqEntries_eq {entries : List (Value × Value)}
    (each : ∀ p ∈ entries, (∀ x, beq x p.1 = true → x = p.1) ∧ ∀ x, beq x p.2 = true → x = p.2) :
    ∀ ps, beqEntries ps entries = true → ps = entries := by
  induction entries with
  | nil => intro ps same; cases ps <;> simp_all [beqEntries]
  | cons p rest ih =>
    intro ps same
    obtain ⟨k', v'⟩ := p
    cases ps with
    | nil => simp [beqEntries] at same
    | cons q others =>
      obtain ⟨k, v⟩ := q
      simp only [beqEntries, Bool.and_eq_true] at same
      obtain ⟨keys, values⟩ := each (k', v') (List.mem_cons_self ..)
      rw [keys k same.1.1, values v same.1.2,
        ih (fun p member => each p (List.mem_cons_of_mem _ member)) others same.2]

/-- On a document with no double, document equality is equality. -/
theorem eq_of_beq {b : Value} (free : b.FloatFree) : ∀ a, (a == b) = true → a = b := by
  induction b with
  | float x => simp [FloatFree, every, notFloat] at free
  | array items ih =>
    rw [floatFree_array] at free
    intro a same
    cases a <;> simp only [BEq.beq, beq, reduceCtorEq] at same
    rw [beqItems_eq (fun y member => ih y member (free y member)) _ same]
  | map entries ih =>
    rw [floatFree_map] at free
    intro a same
    cases a <;> simp only [BEq.beq, beq, reduceCtorEq] at same
    rw [beqEntries_eq (fun p member => ⟨(ih p member).1 (free p member).1, (ih p member).2 (free p member).2⟩) _ same]
  | _ =>
    intro a same
    change beq a _ = true at same
    cases a <;> simp_all [beq]

end Value

/-- A bag item as a document entry. -/
def itemEntry (p : Int32 × UInt32) : Value × Value := (.int p.1.toInt64, .int p.2.toUInt64.toInt64)

/-- The order of bag items in a document: the canonical order of their keys. -/
def itemOrder (a b : Int32 × UInt32) : Bool := canonicalCmp (itemEntry a).1 (itemEntry b).1 != .gt

/-- The rank of a bag item: the rank of its key. -/
def itemRank (p : Int32 × UInt32) : Nat := intRank p.1.toInt64

theorem itemOrder_eq (a b : Int32 × UInt32) : itemOrder a b = decide (itemRank a ≤ itemRank b) := by
  rw [itemOrder, itemEntry, itemEntry, canonicalCmp_int]
  change (compare (itemRank a) (itemRank b) != .gt) = _
  rcases Nat.lt_or_ge (itemRank b) (itemRank a) with after | before
  · rw [Nat.compare_eq_gt.mpr after]
    simp [Nat.not_le.mpr after]
  · have notAfter : compare (itemRank a) (itemRank b) ≠ .gt := fun gt => Nat.not_lt.mpr before (Nat.compare_eq_gt.mp gt)
    simp [notAfter, before]

theorem pairwise_itemOrder (items : List (Int32 × UInt32)) :
    (items.mergeSort itemOrder).Pairwise fun a b => itemOrder a b :=
  List.pairwise_mergeSort (fun a b c first second => by simp_all [itemOrder_eq]; omega)
    (fun a b => by simp only [itemOrder_eq, Bool.or_eq_true, decide_eq_true_eq]; omega) items

theorem sortEntries_items (items : List (Int32 × UInt32)) :
    sortEntries (items.map itemEntry) = (items.mergeSort itemOrder).map itemEntry :=
  (@List.map_mergeSort _ _ itemOrder (fun a b : Value × Value => canonicalCmp a.1 b.1 != .gt) itemEntry items
    fun _ _ _ _ => rfl).symm

namespace Body

/-- A body as its document reads back: a bag's items in the order of their keys. -/
def canonical : Body → Body
  | .bag items => .bag (items.mergeSort itemOrder)
  | b => b

theorem fields_bag (items : List (Int32 × UInt32)) :
    (Body.bag items).fields = [(.text "items", Value.ofPairs (items.map itemEntry))] := rfl

theorem fields_canonical (b : Body) : b.canonical.fields = b.fields := by
  cases b with
  | bag items =>
    rw [canonical, fields_bag, fields_bag, Value.ofPairs, Value.ofPairs, sortEntries_items, sortEntries_items,
      List.mergeSort_of_pairwise (pairwise_itemOrder items)]
  | _ => rfl

/-- Two bodies with the same own fields: one body, or bags holding the same items in some order. -/
inductive Same : Body → Body → Prop
  | refl (b : Body) : Same b b
  | bag {items items' : List (Int32 × UInt32)} : items.Perm items' → Same (.bag items) (.bag items')

theorem canonical_same (b : Body) : b.canonical.Same b := by
  cases b with
  | bag items => exact .bag (List.mergeSort_perm items itemOrder)
  | _ => exact .refl _

theorem Same.eq_role {b : Body} {name : String} {level : UInt32} {gold : Int64}
    (same : b.Same (.role name level gold)) : b = .role name level gold := by
  cases same
  rfl

theorem fields_floatFree (b : Body) : ∀ p ∈ b.fields, p.1.FloatFree ∧ p.2.FloatFree := by
  intro p member
  cases b with
  | bag items =>
    rw [fields_bag, List.mem_singleton] at member
    subst member
    refine ⟨rfl, Value.floatFree_map.mpr fun q listed => ?_⟩
    rw [sortEntries_items] at listed
    obtain ⟨item, -, rfl⟩ := List.mem_map.mp listed
    exact ⟨rfl, rfl⟩
  | role name level gold =>
    simp only [fields, List.mem_cons, List.not_mem_nil, or_false] at member
    rcases member with rfl | rfl | rfl <;> exact ⟨rfl, rfl⟩
  | pet owner species level =>
    simp only [fields, List.mem_cons, List.not_mem_nil, or_false] at member
    rcases member with rfl | rfl | rfl <;> exact ⟨rfl, rfl⟩
  | impostor name =>
    rw [fields, List.mem_singleton] at member
    subst member
    exact ⟨rfl, rfl⟩
  | nameless => simp [fields] at member

end Body

theorem Entity.document_floatFree (e : Entity) : (Value.ofPairs (e.audit.pairs ++ e.body.fields)).FloatFree := by
  refine Value.floatFree_map.mpr fun p member => ?_
  rcases List.mem_append.mp ((List.mergeSort_perm _ _).mem_iff.mp member) with recorded | field
  · simp only [Audit.pairs, List.mem_cons, List.not_mem_nil, or_false] at recorded
    rcases recorded with rfl | rfl | rfl | rfl | rfl | rfl <;> exact ⟨rfl, rfl⟩
  · exact e.body.fields_floatFree p field

namespace Schema

theorem lookup_reverse_cons (key x : String) (v : Value) (l : List (String × Value)) :
    ((key, v) :: l).reverse.lookup x = (l.reverse.lookup x).or (if key = x then some v else none) := by
  rw [List.reverse_cons, List.lookup_append]
  by_cases same : key = x
  · simp [same]
  · have differ : (x == key) = false := beq_eq_false_iff_ne.mpr (Ne.symm same)
    simp only [List.lookup, differ, same, if_false]

/-- The walk keeps, for each own field, the first entry under it, and sets aside, for each other
key, the first entry under it: a lookup in either output is a lookup in what came before and then
in the entries walked. -/
theorem walk_lookup {own : List String} {check : String → Value → Decoded Unit}
    {seen aside : List (String × Value)} {entries : List (Value × Value)} {kept setAside : List (String × Value)}
    (walked : walk own check seen aside entries = .ok (kept, setAside)) (x : String) :
    (x ∈ own → kept.lookup x = (seen.reverse.lookup x).or (Value.lookup x entries)) ∧
      (x ∉ own → setAside.lookup x = (aside.reverse.lookup x).or (Value.lookup x entries)) := by
  induction entries generalizing seen aside with
  | nil =>
    simp only [walk, Except.ok.injEq, Prod.mk.injEq] at walked
    obtain ⟨rfl, rfl⟩ := walked
    simp [Value.lookup]
  | cons entry rest ih =>
    obtain ⟨k, v⟩ := entry
    cases k
    case text key =>
      have here : Value.lookup x ((.text key, v) :: rest) = if key = x then some v else Value.lookup x rest := by
        simp [Value.lookup, Value.isKey]
      rw [walk] at walked
      by_cases mine : key ∈ own
      · by_cases dup : seen.any (·.1 = key)
        · simp [mine, dup] at walked
        simp only [List.contains_iff_mem, mine, dup, if_true, if_false, Bool.false_eq_true] at walked
        obtain ⟨_, -, walked⟩ := except_bind_eq_ok.mp walked
        obtain ⟨keptIff, asideIff⟩ := ih walked
        refine ⟨fun chosen => ?_, fun other => ?_⟩
        · rw [keptIff chosen, here, lookup_reverse_cons]
          split_ifs <;> simp
        · have differ : key ≠ x := fun same => other (same ▸ mine)
          rw [asideIff other, here, if_neg differ]
      · simp only [List.contains_iff_mem, mine, if_false] at walked
        obtain ⟨keptIff, asideIff⟩ := ih walked
        refine ⟨fun chosen => ?_, fun other => ?_⟩
        · have differ : key ≠ x := fun same => mine (same ▸ chosen)
          rw [keptIff chosen, here, if_neg differ]
        · rw [asideIff other, here, lookup_reverse_cons]
          split_ifs <;> simp
    all_goals simp [walk] at walked

theorem lookup_map_text (x : String) (l : List (String × Value)) :
    Value.lookup x (l.map fun (k, v) => (.text k, v)) = l.lookup x := by
  induction l with
  | nil => rfl
  | cons p rest ih =>
    obtain ⟨key, v⟩ := p
    by_cases same : x = key
    · simp [Value.lookup, Value.isKey, same]
    · have differ : (x == key) = false := beq_eq_false_iff_ne.mpr same
      simp [Value.lookup, Value.isKey, Ne.symm same, differ, List.lookup, ih]

/-- The audit reader takes the deletion mark set aside under its name, and false when there is
none. -/
theorem readAudit_isDeleted {aside : List (String × Value)} {m : Audit} (read : readAudit aside = .ok m) :
    (aside.lookup Audit.isDeletedField = none ∧ m.isDeleted = false) ∨
      aside.lookup Audit.isDeletedField = some (.bool m.isDeleted) := by
  obtain ⟨⟨fields, _⟩, walked, read⟩ := except_bind_eq_ok.mp read
  have found : fields.lookup Audit.isDeletedField = aside.lookup Audit.isDeletedField := by
    rw [(walk_lookup walked Audit.isDeletedField).1 (by decide), lookup_map_text]
    rfl
  dsimp only at read
  split at read
  · cases read
  · simp only [except_bind_eq_ok, pure, Except.pure, Except.ok.injEq] at read
    obtain ⟨_, -, _, -, _, -, _, -, _, -, deleted, marked, rfl⟩ := read
    rw [fieldOr, found] at marked
    rcases mark : aside.lookup Audit.isDeletedField with _ | v
    · rw [mark] at marked
      cases marked
      exact .inl ⟨rfl, rfl⟩
    · rw [mark] at marked
      cases v <;> cases marked
      exact .inr rfl

/-- A document read as an entity is a map; its own fields are walked out of its entries, the rest
set aside for the audit record. -/
theorem readEntity_walk {k : Kind} {doc : Value} {e : Entity} (read : readEntity k doc = .ok e) :
    ∃ entries own aside, doc = .map entries ∧ walk k.ownFields (checkOwn k) [] [] entries = .ok (own, aside) ∧
      readAudit aside = .ok e.audit ∧ readBody k own = .ok e.body ∧ e.hooks = {} := by
  unfold readEntity at read
  cases doc
  case map entries =>
    simp only [pure_bind] at read
    obtain ⟨⟨own, aside⟩, walked, read⟩ := except_bind_eq_ok.mp read
    dsimp only at read
    split at read
    · cases read
    · simp only [except_bind_eq_ok, pure, Except.pure, Except.ok.injEq] at read
      obtain ⟨a, audited, b, bodied, rfl⟩ := read
      exact ⟨entries, own, aside, rfl, walked, audited, bodied, rfl⟩
  all_goals simp [throw, throwThe, MonadExceptOf.throw, bind, Except.bind] at read

/-- Walking entries under distinct texts, none of them seen before, whose own fields pass the check:
the walk keeps the own fields and sets the others aside, each in stored order. -/
theorem walk_texts {own : List String} {check : String → Value → Decoded Unit}
    {seen aside texts : List (String × Value)} (distinct : (texts.map (·.1)).Nodup)
    (unseen : ∀ p ∈ seen, p.1 ∉ texts.map (·.1)) (checked : ∀ p ∈ texts, p.1 ∈ own → check p.1 p.2 = .ok ()) :
    walk own check seen aside (texts.map fun (k, v) => (.text k, v)) =
      .ok (seen.reverse ++ texts.filter (fun p => own.contains p.1),
        aside.reverse ++ texts.filter (fun p => !own.contains p.1)) := by
  induction texts generalizing seen aside with
  | nil => simp [walk]
  | cons p rest ih =>
    obtain ⟨key, v⟩ := p
    simp only [List.map_cons, List.nodup_cons] at distinct
    have later : ∀ q ∈ rest, q.1 ∈ own → check q.1 q.2 = .ok () := fun q member => checked q (List.mem_cons_of_mem _ member)
    rw [List.map_cons, walk]
    by_cases mine : key ∈ own
    · have fresh : seen.any (·.1 = key) = false := by
        refine List.any_eq_false.mpr fun q member same => unseen q member ?_
        simp only [decide_eq_true_eq] at same
        simp [same]
      have unseen' : ∀ q ∈ (key, v) :: seen, q.1 ∉ rest.map (·.1) := by
        intro q member
        rcases List.mem_cons.mp member with rfl | old
        · exact distinct.1
        · exact fun found => unseen q old (List.mem_cons_of_mem _ found)
      simp only [List.contains_iff_mem, mine, if_true, fresh, Bool.false_eq_true, if_false]
      rw [checked (key, v) (List.mem_cons_self ..) mine]
      simp only [bind, Except.bind]
      rw [ih distinct.2 unseen' later]
      simp [mine]
    · have unseen' : ∀ q ∈ seen, q.1 ∉ rest.map (·.1) :=
        fun q member found => unseen q member (List.mem_cons_of_mem _ found)
      simp only [List.contains_iff_mem, mine, if_false]
      rw [ih distinct.2 unseen' later]
      simp [mine]

end Schema

namespace Schema

@[simp] theorem text_text (s : String) : text (.text s) = .ok s := rfl

theorem toInt_widen (n : UInt32) : n.toUInt64.toInt64.toInt = n.toNat := by
  have small := n.toNat_lt
  have wide : n.toUInt64.toInt64.toBitVec.toNat = n.toNat := by simp
  rw [Int64.toInt, BitVec.toInt_eq_toNat_cond, wide]
  split <;> omega

theorem toInt_narrow {c : UInt64} (fits : c.toNat ≤ 9223372036854775807) : c.toInt64.toInt = c.toNat := by
  have same : c.toInt64.toBitVec.toNat = c.toNat := rfl
  rw [Int64.toInt, BitVec.toInt_eq_toNat_cond, same]
  split <;> omega

@[simp] theorem unsigned32_widen (n : UInt32) : unsigned32 (.int n.toUInt64.toInt64) = .ok n := by
  have small := n.toNat_lt
  have inRange : (0 : Int) ≤ n.toNat ∧ (n.toNat : Int) ≤ 4294967295 := by omega
  simp only [unsigned32, intIn, toInt_widen, inRange, and_self, if_true, bind, Except.bind, pure, Except.pure]
  simp

@[simp] theorem signed32_widen (k : Int32) : signed32 (.int k.toInt64) = .ok k := by
  have low := Int32.le_toInt k
  have high := Int32.toInt_le k
  rw [Int32.toInt_maxValue] at high
  have inRange : -2147483648 ≤ k.toInt ∧ k.toInt ≤ 2147483647 := by omega
  simp only [signed32, intIn, Int32.toInt_toInt64, inRange, and_self, if_true, bind, Except.bind, pure,
    Except.pure, Int32.ofInt_toInt]

@[simp] theorem signed64_int (g : Int64) : signed64 (.int g) = .ok g := by
  have low := Int64.le_toInt g
  have high := Int64.toInt_le g
  rw [Int64.toInt_maxValue] at high
  have inRange : -9223372036854775808 ≤ g.toInt ∧ g.toInt ≤ 9223372036854775807 := by omega
  simp only [signed64, intIn, inRange, and_self, if_true, bind, Except.bind, pure, Except.pure, Int64.ofInt_toInt]

theorem asideUnsigned64_narrow {c : UInt64} (fits : c.toNat ≤ 9223372036854775807) :
    asideUnsigned64 (.int c.toInt64) = .ok c := by
  simp [asideUnsigned64, toInt_narrow fits]

theorem putCount_fresh {k : Int32} {n : UInt32} {items : List (Int32 × UInt32)} (fresh : k ∉ items.map (·.1)) :
    putCount k n items = items ++ [(k, n)] := by
  induction items with
  | nil => rfl
  | cons p rest ih =>
    obtain ⟨k', n'⟩ := p
    simp only [List.map_cons, List.mem_cons, not_or] at fresh
    rw [putCount, if_neg (Ne.symm fresh.1), ih fresh.2]
    rfl

/-- Reading back the entries of items with distinct keys appends the items, in order. -/
theorem countsFrom_items {acc items : List (Int32 × UInt32)} (distinct : ((acc ++ items).map (·.1)).Nodup) :
    countsFrom acc (items.map itemEntry) = .ok (acc ++ items) := by
  induction items generalizing acc with
  | nil => simp [countsFrom]
  | cons p rest ih =>
    obtain ⟨k, n⟩ := p
    have moved : acc ++ (k, n) :: rest = (acc ++ [(k, n)]) ++ rest := by simp
    rw [moved] at distinct ⊢
    have fresh : k ∉ acc.map (·.1) := by
      have front := (List.map_append .. ▸ distinct).of_append_left
      simp only [List.map_append, List.map_cons, List.map_nil, List.nodup_append, List.nodup_cons] at front
      exact fun member => front.2.2 k member k (List.mem_singleton_self k) rfl
    rw [List.map_cons, itemEntry, countsFrom, signed32_widen, unsigned32_widen]
    simp only [bind, Except.bind]
    rw [putCount_fresh fresh]
    exact ih distinct

theorem counts_items {items : List (Int32 × UInt32)} (distinct : (items.map (·.1)).Nodup) :
    counts (Value.ofPairs (items.map itemEntry)) = .ok (items.mergeSort itemOrder) := by
  have sorted : ((items.mergeSort itemOrder).map (·.1)).Nodup :=
    ((List.mergeSort_perm items itemOrder).map _).nodup_iff.mpr distinct
  rw [Value.ofPairs, counts, sortEntries_items]
  exact countsFrom_items (List.nil_append _ ▸ sorted)

/-- An own field of a well-formed body passes its check. -/
theorem checkOwn_fields {b : Body} (wf : b.WellFormed) {key : String} {v : Value}
    (member : (.text key, v) ∈ b.fields) : checkOwn b.kind key v = .ok () := by
  cases b with
  | bag items =>
    rw [Body.fields_bag, List.mem_singleton, Prod.mk.injEq] at member
    obtain ⟨-, rfl⟩ := member
    simp [Body.kind, checkOwn, counts_items wf, bind, Except.bind, pure, Except.pure]
  | role name level gold =>
    simp only [Body.fields, List.mem_cons, List.not_mem_nil, or_false, Prod.mk.injEq, Value.text.injEq] at member
    rcases member with ⟨rfl, rfl⟩ | ⟨rfl, rfl⟩ | ⟨rfl, rfl⟩ <;> simp [Body.kind, checkOwn, bind, Except.bind, pure, Except.pure]
  | pet owner species level =>
    simp only [Body.fields, List.mem_cons, List.not_mem_nil, or_false, Prod.mk.injEq, Value.text.injEq] at member
    rcases member with ⟨rfl, rfl⟩ | ⟨rfl, rfl⟩ | ⟨rfl, rfl⟩ <;> simp [Body.kind, checkOwn, bind, Except.bind, pure, Except.pure]
  | impostor name =>
    simp only [Body.fields, List.mem_singleton, Prod.mk.injEq, Value.text.injEq] at member
    obtain ⟨rfl, rfl⟩ := member
    rfl
  | nameless => simp [Body.fields] at member

end Schema

namespace Schema

theorem keys_map_text (texts : List (String × Value)) :
    (texts.map fun (k, v) => (Value.text k, v)).map (·.1) = (texts.map (·.1)).map .text := by
  induction texts with
  | nil => rfl
  | cons p rest ih =>
    obtain ⟨k, v⟩ := p
    simp [ih]

theorem mem_map_text {texts : List (String × Value)} {x : String} {v : Value} :
    (Value.text x, v) ∈ texts.map (fun (k, v) => (Value.text k, v)) ↔ (x, v) ∈ texts := by
  induction texts with
  | nil => simp
  | cons p rest ih =>
    obtain ⟨k, w⟩ := p
    simp [ih]

/-- Pairs keyed by texts are names and values. -/
theorem exists_texts {entries : List (Value × Value)} (keyed : ∀ p ∈ entries, ∃ s, p.1 = .text s) :
    ∃ texts : List (String × Value), entries = texts.map fun (k, v) => (.text k, v) := by
  induction entries with
  | nil => exact ⟨[], rfl⟩
  | cons p rest ih =>
    obtain ⟨s, named⟩ := keyed p (List.mem_cons_self ..)
    obtain ⟨texts, rfl⟩ := ih fun q member => keyed q (List.mem_cons_of_mem _ member)
    refine ⟨(s, p.2) :: texts, ?_⟩
    obtain ⟨k, v⟩ := p
    dsimp only at named
    rw [List.map_cons, named]

theorem lookup_filter {texts : List (String × Value)} {keep : String → Bool} {x : String} (kept : keep x = true) :
    (texts.filter fun p => keep p.1).lookup x = texts.lookup x := by
  induction texts with
  | nil => rfl
  | cons p rest ih =>
    obtain ⟨key, v⟩ := p
    by_cases same : x = key
    · subst same
      simp [kept, List.lookup]
    · have differ : (x == key) = false := beq_eq_false_iff_ne.mpr same
      by_cases keeps : keep key <;> simp [keeps, List.lookup, differ, ih]

theorem lookup_texts {texts : List (String × Value)} {x : String} {v : Value} (distinct : (texts.map (·.1)).Nodup)
    (member : (x, v) ∈ texts) : texts.lookup x = some v := by
  rw [← lookup_map_text]
  refine Value.lookup_of_mem ?_ (mem_map_text.mpr member)
  rw [keys_map_text]
  exact distinct.map fun _ _ same => Value.text.inj same

theorem checkAudit_pairs {m : Audit} (fits : m.updateCount.toNat ≤ 9223372036854775807) {x : String} {v : Value}
    (member : (.text x, v) ∈ m.pairs) : checkAudit x v = .ok () := by
  simp only [Audit.pairs, List.mem_cons, List.not_mem_nil, or_false, Prod.mk.injEq, Value.text.injEq] at member
  rcases member with ⟨rfl, rfl⟩ | ⟨rfl, rfl⟩ | ⟨rfl, rfl⟩ | ⟨rfl, rfl⟩ | ⟨rfl, rfl⟩ | ⟨rfl, rfl⟩
  all_goals simp [checkAudit, Audit.idField, Audit.createTimeField, updateTimeField, Audit.deleteTimeField,
    updateCountField, Audit.isDeletedField, asideUnsigned64_narrow fits, asideSigned64, asideBool, bind, Except.bind,
    pure, Except.pure]

/-- The audit reader reads a record back from entries that pair each of its fields with the value
the record stores there. -/
theorem readAudit_of_lookup {aside : List (String × Value)} {m : Audit} (fits : m.updateCount.toNat ≤ 9223372036854775807)
    (distinct : (aside.map (·.1)).Nodup) (found : ∀ x v, (Value.text x, v) ∈ m.pairs → aside.lookup x = some v) :
    readAudit aside = .ok { m with baseline := none } := by
  have checked : ∀ p ∈ aside, p.1 ∈ auditFields → checkAudit p.1 p.2 = .ok () := by
    intro p member audit
    obtain ⟨q, paired, named⟩ : ∃ q ∈ m.pairs, q.1 = .text p.1 := by
      have : Value.text p.1 ∈ m.pairs.map (·.1) := by
        rw [Audit.pairs_keys]
        exact List.mem_map_of_mem audit
      simpa using this
    obtain ⟨k, v⟩ := q
    dsimp only at named
    subst named
    have same := (found p.1 v paired).symm.trans (lookup_texts distinct member)
    injection same with same
    exact same ▸ checkAudit_pairs fits paired
  have look : ∀ x v d, (Value.text x, v) ∈ m.pairs →
      fieldOr (aside.filter fun p => auditFields.contains p.1) x d = v := by
    intro x v d member
    have audit : x ∈ auditFields := by
      have : Value.text x ∈ m.pairs.map (·.1) := List.mem_map_of_mem member
      rw [Audit.pairs_keys] at this
      simpa using this
    rw [fieldOr, lookup_filter (List.contains_iff_mem.mpr audit), found x v member]
    rfl
  have identified : (aside.filter fun p => auditFields.contains p.1).lookup Audit.idField = some (.int m.id) := by
    rw [lookup_filter (by decide), found Audit.idField (.int m.id) (by simp [Audit.pairs])]
  rw [readAudit, @walk_texts auditFields checkAudit [] [] aside distinct (by simp) checked]
  simp only [bind, Except.bind, List.reverse_nil, List.nil_append, identified]
  rw [look Audit.createTimeField (.int m.createTime) _ (by simp [Audit.pairs]),
    look updateTimeField (.int m.updateTime) _ (by simp [Audit.pairs]),
    look Audit.deleteTimeField (.int m.deleteTime) _ (by simp [Audit.pairs]),
    look updateCountField (.int m.updateCount.toInt64) _ (by simp [Audit.pairs]),
    look Audit.isDeletedField (.bool m.isDeleted) _ (by simp [Audit.pairs]), asideUnsigned64_narrow fits]
  rfl

/-- The body reader reads a well-formed body back, its items in key order, from own fields that
pair each field with the value the body stores there. -/
theorem readBody_of_lookup {own : List (String × Value)} {b : Body} (wf : b.WellFormed)
    (found : ∀ x v, (Value.text x, v) ∈ b.fields → own.lookup x = some v) :
    readBody b.kind own = .ok b.canonical := by
  have get : ∀ x v, (Value.text x, v) ∈ b.fields → fieldOr own x .null = v := by
    intro x v member
    rw [fieldOr, found x v member]
    rfl
  cases b with
  | role name level gold =>
    simp only [Body.kind, readBody, get "name" (.text name) (by simp [Body.fields]),
      get "level" (.int level.toUInt64.toInt64) (by simp [Body.fields]), get "gold" (.int gold) (by simp [Body.fields]),
      text_text, unsigned32_widen, signed64_int]
    rfl
  | bag items =>
    simp only [Body.kind, readBody, get "items" (Value.ofPairs (items.map itemEntry)) (by simp [Body.fields_bag]),
      counts_items wf]
    rfl
  | pet owner species level =>
    simp only [Body.kind, readBody, get "owner_id" (.int owner) (by simp [Body.fields]),
      get "species" (.text species) (by simp [Body.fields]),
      get "level" (.int level.toUInt64.toInt64) (by simp [Body.fields]), text_text, unsigned32_widen, signed64_int]
    rfl
  | impostor name =>
    simp only [Body.kind, readBody, get "name" (.text name) (by simp [Body.fields]), text_text]
    rfl
  | nameless => rfl

/-- A pair under a text among pairs keyed by names is under one of the names. -/
theorem mem_names {pairs : List (Value × Value)} {names : List String} (keys : pairs.map (·.1) = names.map .text)
    {x : String} {v : Value} (member : (.text x, v) ∈ pairs) : x ∈ names := by
  have named : Value.text x ∈ pairs.map (·.1) := List.mem_map_of_mem member
  rw [keys] at named
  obtain ⟨y, found, same⟩ := List.mem_map.mp named
  exact Value.text.inj same ▸ found

end Schema

namespace Entity

/-- The entries of an entity's document, as names and values in stored order: each name once, each
with the value the entity's audit record or own fields pair it with. -/
theorem document_texts (e : Entity) :
    ∃ texts : List (String × Value),
      sortEntries (e.audit.pairs ++ e.body.fields) = texts.map (fun (k, v) => (.text k, v)) ∧
        (texts.map (·.1)).Nodup ∧ ∀ x v, (x, v) ∈ texts ↔ (Value.text x, v) ∈ e.audit.pairs ++ e.body.fields := by
  have perm := List.mergeSort_perm (e.audit.pairs ++ e.body.fields) fun a b => canonicalCmp a.1 b.1 != .gt
  obtain ⟨texts, sorted⟩ : ∃ texts : List (String × Value),
      sortEntries (e.audit.pairs ++ e.body.fields) = texts.map (fun (k, v) => (.text k, v)) := by
    refine Schema.exists_texts fun p member => ?_
    have key : p.1 ∈ (Schema.auditFields ++ e.kind.ownFields).map .text := by
      rw [← e.pairs_keys]
      exact List.mem_map_of_mem (perm.mem_iff.mp member)
    obtain ⟨s, -, named⟩ := List.mem_map.mp key
    exact ⟨s, named.symm⟩
  refine ⟨texts, sorted, ?_, fun x v => ?_⟩
  · have keys := e.sorted_keys_nodup
    rw [sorted, Schema.keys_map_text] at keys
    exact keys.of_map _
  · rw [← Schema.mem_map_text, ← sorted]
    exact perm.mem_iff

end Entity

namespace Schema

/-- Entries that hold every field of an entity keep each own field of its kind for the reader. -/
theorem ownFields_present {e : Entity} {texts : List (String × Value)}
    (holds : ∀ x v, (Value.text x, v) ∈ e.body.fields → (x, v) ∈ texts) :
    e.kind.ownFields.find? (fun f => !((texts.filter fun p => e.kind.ownFields.contains p.1).any (·.1 = f))) =
      none := by
  refine List.find?_eq_none.mpr fun f mine => ?_
  obtain ⟨q, field, named⟩ : ∃ q ∈ e.body.fields, q.1 = .text f := by
    have : Value.text f ∈ e.body.fields.map (·.1) := by
      rw [e.body.fields_keys]
      exact List.mem_map_of_mem mine
    simpa using this
  obtain ⟨k, v⟩ := q
  dsimp only at named
  subst named
  have kept : (f, v) ∈ texts.filter fun p => e.kind.ownFields.contains p.1 :=
    List.mem_filter.mpr ⟨holds f v field, List.contains_iff_mem.mpr mine⟩
  have found : (texts.filter fun p => e.kind.ownFields.contains p.1).any (·.1 = f) = true :=
    List.any_eq_true.mpr ⟨(f, v), kept, by simp⟩
  rw [found]
  decide

/-- An entity's document reads back as the entity, without its baseline and hooks and with a bag's
items in key order. -/
theorem readEntity_document {e : Entity} (wf : e.body.WellFormed)
    (fits : e.audit.updateCount.toNat ≤ 9223372036854775807) :
    readEntity e.kind (Value.ofPairs (e.audit.pairs ++ e.body.fields)) =
      .ok ⟨{ e.audit with baseline := none }, e.body.canonical, {}⟩ := by
  obtain ⟨texts, sorted, distinct, member⟩ := e.document_texts
  have apart : ∀ x ∈ auditFields, x ∉ e.kind.ownFields := by
    have keys := e.kind.documentKeys_nodup
    rw [List.nodup_append] at keys
    exact fun x audit own => keys.2.2 x audit x own rfl
  have audit : ∀ {x v}, (Value.text x, v) ∈ e.audit.pairs → x ∈ auditFields := mem_names e.audit.pairs_keys
  have own : ∀ {x v}, (Value.text x, v) ∈ e.body.fields → x ∈ e.kind.ownFields := mem_names e.body.fields_keys
  have checked : ∀ p ∈ texts, p.1 ∈ e.kind.ownFields → checkOwn e.kind p.1 p.2 = .ok () := by
    intro p listed mine
    rcases List.mem_append.mp ((member p.1 p.2).mp listed) with recorded | field
    · exact absurd mine (apart _ (audit recorded))
    · exact checkOwn_fields wf field
  have present := @ownFields_present e texts fun x v field => (member x v).mpr (List.mem_append_right _ field)
  have audited : readAudit (texts.filter fun p => !e.kind.ownFields.contains p.1) = .ok { e.audit with baseline := none } := by
    refine readAudit_of_lookup fits (distinct.sublist (List.filter_sublist.map _)) fun x v recorded => ?_
    have aside : (!e.kind.ownFields.contains x) = true := by
      simpa using apart x (audit recorded)
    rw [@lookup_filter texts (fun s => !e.kind.ownFields.contains s) x aside]
    exact lookup_texts distinct ((member x v).mpr (List.mem_append_left _ recorded))
  have bodied : readBody e.kind (texts.filter fun p => e.kind.ownFields.contains p.1) = .ok e.body.canonical := by
    refine readBody_of_lookup wf fun x v field => ?_
    rw [lookup_filter (List.contains_iff_mem.mpr (own field))]
    exact lookup_texts distinct ((member x v).mpr (List.mem_append_right _ field))
  rw [Value.ofPairs, sorted, readEntity, pure_bind]
  beta_reduce
  rw [@walk_texts e.kind.ownFields (checkOwn e.kind) [] [] texts distinct (by simp) checked]
  simp only [bind, Except.bind, List.reverse_nil, List.nil_append, present, audited, bodied]
  rfl

end Schema

theorem Entity.ofDocument_document {e : Entity} (wf : e.body.WellFormed)
    (fits : e.audit.updateCount.toNat ≤ 9223372036854775807) :
    Entity.ofDocument e.kind (Value.ofPairs (e.audit.pairs ++ e.body.fields)) =
      .ok ⟨{ e.audit with baseline := none }, e.body.canonical, {}⟩ := by
  rw [Entity.ofDocument, Schema.readEntity_document wf fits]
  rfl

end GameVault
