import Mathlib
import GameVault.Proofs.Double.Order
import GameVault.Proofs.Cbor.Injective
import GameVault.Query.Sort
import GameVault.Proofs.Store.LiveReads
import GameVault.Proofs.Sorting.Quick

namespace GameVault

/-- The outcomes `a ? b`, `b ? c` and `a ? c` of one comparison chain as a total preorder's do: at
most then at most is at most, below on either side is below, and equal then equal is equal. -/
def Chains (ab bc ac : Ordering) : Prop :=
  (ab.isLE → bc.isLE → ac.isLE) ∧ (ab = .lt → bc.isLE → ac = .lt) ∧ (ab.isLE → bc = .lt → ac = .lt) ∧
    (ab = .eq → bc = .eq → ac = .eq)

instance (ab bc ac : Ordering) : Decidable (Chains ab bc ac) := inferInstanceAs (Decidable (_ ∧ _ ∧ _ ∧ _))

theorem chains_of_transCmp {α : Type} (cmp : α → α → Ordering) [Std.TransCmp cmp] (x y z : α) :
    Chains (cmp x y) (cmp y z) (cmp x z) :=
  ⟨Std.TransCmp.isLE_trans, Std.TransCmp.lt_of_lt_of_isLE, Std.TransCmp.lt_of_isLE_of_lt,
    Std.TransCmp.eq_trans⟩

theorem Chains.comm {ab bc ac : Ordering} (chains : Chains ab bc ac) : Chains bc ab ac := by
  obtain ⟨le, lt, lt', eq⟩ := chains
  exact ⟨fun h h' => le h' h, fun h h' => lt' h' h, fun h h' => lt h' h, fun h h' => eq h' h⟩

theorem isLE_then (o p : Ordering) : (o.then p).isLE = true ↔ o = .lt ∨ (o = .eq ∧ p.isLE = true) := by
  cases o <;> simp [Ordering.then]

/-- Comparing by one order and, among its ties, by a second chains; the second need only chain
where the first ties on both sides. -/
theorem Chains.then {ab bc ac ab' bc' ac' : Ordering} (first : Chains ab bc ac)
    (second : ab = .eq → bc = .eq → Chains ab' bc' ac') : Chains (ab.then ab') (bc.then bc') (ac.then ac') := by
  obtain ⟨le, lt, lt', eq⟩ := first
  have strict : ∀ {o : Ordering} (p : Ordering), o = .lt → (o.then p).isLE = true ∧ o.then p = .lt := by
    rintro o p rfl
    exact ⟨rfl, rfl⟩
  refine ⟨fun h h' => ?_, fun h h' => ?_, fun h h' => ?_, fun h h' => ?_⟩
  · rcases (isLE_then _ _).mp h with below | ⟨tied, h⟩ <;> rcases (isLE_then _ _).mp h' with below' | ⟨tied', h'⟩
    · exact (strict _ (lt below (by simp [below']))).1
    · exact (strict _ (lt below (by simp [tied']))).1
    · exact (strict _ (lt' (by simp [tied]) below')).1
    · rw [eq tied tied']
      exact (second tied tied').1 h h'
  · rcases Ordering.then_eq_lt.mp h with below | ⟨tied, h⟩
    · exact (strict _ (lt below (by rcases (isLE_then _ _).mp h' with below' | ⟨tied', -⟩ <;> simp [*]))).2
    · rcases (isLE_then _ _).mp h' with below' | ⟨tied', h'⟩
      · exact (strict _ (lt' (by simp [tied]) below')).2
      · rw [eq tied tied']
        exact (second tied tied').2.1 h h'
  · rcases Ordering.then_eq_lt.mp h' with below' | ⟨tied', h'⟩
    · exact (strict _ (lt' (by rcases (isLE_then _ _).mp h with below | ⟨tied, -⟩ <;> simp [*]) below')).2
    · rcases (isLE_then _ _).mp h with below | ⟨tied, h⟩
      · exact (strict _ (lt below (by simp [tied']))).2
      · rw [eq tied tied']
        exact (second tied tied').2.2.1 h h'
  · obtain ⟨tied, h⟩ := Ordering.then_eq_eq.mp h
    obtain ⟨tied', h'⟩ := Ordering.then_eq_eq.mp h'
    rw [eq tied tied']
    exact (second tied tied').2.2.2 h h'

section Lex

variable {α : Type} {cmp : α → α → Ordering}

/-- Lists compared element by element, the shorter first on a common prefix, chain where their
elements do. -/
theorem chains_compareLex {xs ys zs : List α}
    (each : ∀ x ∈ xs, ∀ y ∈ ys, ∀ z ∈ zs, Chains (cmp x y) (cmp y z) (cmp x z)) :
    Chains (xs.compareLex cmp ys) (ys.compareLex cmp zs) (xs.compareLex cmp zs) := by
  induction xs generalizing ys zs with
  | nil => cases ys <;> cases zs <;> simp [Chains, List.compareLex_nil_nil, List.compareLex_nil_cons,
      List.compareLex_cons_nil]
  | cons x xs ih =>
    cases ys with
    | nil => simp [Chains, List.compareLex_cons_nil]
    | cons y ys =>
      cases zs with
      | nil => simp [Chains, List.compareLex_cons_nil]
      | cons z zs =>
        simp only [List.compareLex_cons_cons]
        exact (each x (by simp) y (by simp) z (by simp)).then fun _ _ =>
          ih fun x' mx y' my z' mz => each x' (by simp [mx]) y' (by simp [my]) z' (by simp [mz])

theorem compareLex_swap {xs ys : List α} (each : ∀ x ∈ xs, ∀ y ∈ ys, cmp y x = (cmp x y).swap) :
    ys.compareLex cmp xs = (xs.compareLex cmp ys).swap := by
  induction xs generalizing ys with
  | nil => cases ys <;> simp [List.compareLex_nil_nil, List.compareLex_nil_cons, List.compareLex_cons_nil]
  | cons x xs ih =>
    cases ys with
    | nil => simp [List.compareLex_nil_cons, List.compareLex_cons_nil]
    | cons y ys =>
      simp only [List.compareLex_cons_cons, Ordering.swap_then]
      rw [each x (by simp) y (by simp), ih fun x' mx y' my => each x' (by simp [mx]) y' (by simp [my])]

/-- Lists related pairwise by a relation under which their elements compare equal compare equal. -/
theorem compareLex_eq_of_forall₂ {R : α → α → Prop} {xs ys : List α}
    (each : ∀ x ∈ xs, ∀ y ∈ ys, R x y → cmp x y = .eq) (related : List.Forall₂ R xs ys) :
    xs.compareLex cmp ys = .eq := by
  induction related with
  | nil => exact List.compareLex_nil_nil
  | cons head _ ih =>
    rw [List.compareLex_cons_cons, each _ (by simp) _ (by simp) head,
      ih fun x mx y my => each x (by simp [mx]) y (by simp [my])]
    rfl

end Lex

theorem compareBytes_eq_compareLex (a b : List UInt8) : compareBytes a b = a.compareLex compare b := by
  induction a generalizing b with
  | nil => cases b <;> simp [compareBytes, List.compareLex_nil_nil, List.compareLex_nil_cons]
  | cons x xs ih =>
    cases b with
    | nil => simp [compareBytes, List.compareLex_cons_nil]
    | cons y ys => simp only [compareBytes, ih, List.compareLex_cons_cons]

namespace Value

theorem queryItems_eq_compareLex (xs ys : List Value) : queryItems xs ys = xs.compareLex queryCmp ys := by
  induction xs generalizing ys with
  | nil => cases ys <;> simp [queryItems, List.compareLex_nil_nil, List.compareLex_nil_cons]
  | cons x xs ih =>
    cases ys with
    | nil => simp [queryItems, List.compareLex_cons_nil]
    | cons y ys => simp only [queryItems, ih, List.compareLex_cons_cons]

/-- Pairs in the query order: keys first, then values. -/
def entryCmp (p q : Value × Value) : Ordering := (queryCmp p.1 q.1).then (queryCmp p.2 q.2)

theorem queryEntries_eq_compareLex (es fs : List (Value × Value)) :
    queryEntries es fs = es.compareLex entryCmp fs := by
  induction es generalizing fs with
  | nil => cases fs <;> simp [queryEntries, List.compareLex_nil_nil, List.compareLex_nil_cons]
  | cons e es ih =>
    cases fs with
    | nil => simp [queryEntries, List.compareLex_cons_nil]
    | cons f fs => simp only [queryEntries, ih, List.compareLex_cons_cons, entryCmp]

theorem queryCmp_of_queryRank_ne {a b : Value} (differ : a.queryRank ≠ b.queryRank) :
    queryCmp a b = compare a.queryRank b.queryRank := by
  cases a <;> cases b <;> first | rfl | exact absurd rfl differ

theorem queryCmp_eq_then (a b : Value) : queryCmp a b = (compare a.queryRank b.queryRank).then (queryCmp a b) := by
  by_cases same : a.queryRank = b.queryRank
  · rw [same, @Std.ReflCmp.compare_self Nat compare _ b.queryRank]
    rfl
  · rw [queryCmp_of_queryRank_ne same]
    cases compare a.queryRank b.queryRank <;> rfl

theorem eq_null_of_queryRank {v : Value} (rank : v.queryRank = 0) : v = .null := by
  cases v <;> simp_all [queryRank]

theorem number_of_queryRank {v : Value} (rank : v.queryRank = 1) : (∃ n, v = .int n) ∨ ∃ x, v = .float x := by
  cases v <;> simp_all [queryRank]

theorem text_of_queryRank {v : Value} (rank : v.queryRank = 2) : ∃ s, v = .text s := by
  cases v <;> simp_all [queryRank]

theorem map_of_queryRank {v : Value} (rank : v.queryRank = 3) : ∃ es, v = .map es := by
  cases v <;> simp_all [queryRank]

theorem array_of_queryRank {v : Value} (rank : v.queryRank = 4) : ∃ xs, v = .array xs := by
  cases v <;> simp_all [queryRank]

theorem bytes_of_queryRank {v : Value} (rank : v.queryRank = 5) : ∃ bs, v = .bytes bs := by
  cases v <;> simp_all [queryRank]

theorem bool_of_queryRank {v : Value} (rank : v.queryRank = 6) : ∃ p, v = .bool p := by
  cases v <;> simp_all [queryRank]

theorem compare_swap_of_oriented {β : Type} [Ord β] [Std.OrientedOrd β] (x y : β) :
    compare y x = (compare x y).swap :=
  Std.OrientedCmp.eq_swap

theorem queryCmp_swap_of_rank {a b : Value} (same : a.queryRank = b.queryRank → queryCmp b a = (queryCmp a b).swap) :
    queryCmp b a = (queryCmp a b).swap := by
  by_cases ranked : a.queryRank = b.queryRank
  · exact same ranked
  · rw [queryCmp_of_queryRank_ne ranked, queryCmp_of_queryRank_ne (Ne.symm ranked)]
    exact compare_swap_of_oriented _ _

/-- Swapping the values swaps the outcome, for every two values. -/
theorem queryCmp_swap (a b : Value) : queryCmp b a = (queryCmp a b).swap := by
  induction a generalizing b with
  | null =>
    refine queryCmp_swap_of_rank fun same => ?_
    obtain rfl := eq_null_of_queryRank same.symm
    rfl
  | bool p =>
    refine queryCmp_swap_of_rank fun same => ?_
    obtain ⟨q, rfl⟩ := bool_of_queryRank same.symm
    exact compare_swap_of_oriented p q
  | int n =>
    refine queryCmp_swap_of_rank fun same => ?_
    rcases number_of_queryRank same.symm with ⟨m, rfl⟩ | ⟨y, rfl⟩
    · exact compare_swap_of_oriented n.toInt m.toInt
    · exact compare_swap_of_oriented (Double.ofInt n.toInt).totalKey y.totalKey
  | float x =>
    refine queryCmp_swap_of_rank fun same => ?_
    rcases number_of_queryRank same.symm with ⟨m, rfl⟩ | ⟨y, rfl⟩
    · exact compare_swap_of_oriented x.totalKey (Double.ofInt m.toInt).totalKey
    · exact compare_swap_of_oriented x.totalKey y.totalKey
  | bytes bs =>
    refine queryCmp_swap_of_rank fun same => ?_
    obtain ⟨cs, rfl⟩ := bytes_of_queryRank same.symm
    show (compare cs.length bs.length).then (compareBytes cs bs) =
      ((compare bs.length cs.length).then (compareBytes bs cs)).swap
    rw [Ordering.swap_then, compareBytes_swap, compare_swap_of_oriented bs.length]
  | text s =>
    refine queryCmp_swap_of_rank fun same => ?_
    obtain ⟨t, rfl⟩ := text_of_queryRank same.symm
    exact compare_swap_of_oriented s t
  | array xs ih =>
    refine queryCmp_swap_of_rank fun same => ?_
    obtain ⟨ys, rfl⟩ := array_of_queryRank same.symm
    show queryItems ys xs = (queryItems xs ys).swap
    rw [queryItems_eq_compareLex, queryItems_eq_compareLex]
    exact compareLex_swap fun x member y _ => ih x member y
  | map es ih =>
    refine queryCmp_swap_of_rank fun same => ?_
    obtain ⟨fs, rfl⟩ := map_of_queryRank same.symm
    show queryEntries fs es = (queryEntries es fs).swap
    rw [queryEntries_eq_compareLex, queryEntries_eq_compareLex]
    refine compareLex_swap fun p member q _ => ?_
    rw [entryCmp, entryCmp, Ordering.swap_then, (ih p member).1 q.1, (ih p member).2 q.2]

theorem queryCmp_self (a : Value) : queryCmp a a = .eq := by
  have swap := queryCmp_swap a a
  cases order : queryCmp a a <;> simp_all [Ordering.swap]

/-- Whether a value is other than an integer a double cannot hold exactly, one of magnitude above
`2 ^ 53`. -/
def exactHere : Value → Bool
  | .int n => decide (n.toInt.natAbs ≤ 2 ^ 53)
  | _ => true

/-- A document whose integers, at every depth, are ones a double holds exactly. -/
def IntsExact (v : Value) : Prop := v.every exactHere = true

instance : DecidablePred IntsExact := fun v => inferInstanceAs (Decidable (v.every exactHere = true))

theorem intsExact_array {items : List Value} : (Value.array items).IntsExact ↔ ∀ x ∈ items, x.IntsExact := by
  simp [IntsExact, every_array, exactHere]

theorem intsExact_map {entries : List (Value × Value)} :
    (Value.map entries).IntsExact ↔ ∀ p ∈ entries, p.1.IntsExact ∧ p.2.IntsExact := by
  simp [IntsExact, every_map, exactHere]

/-- Where a number falls on the scale integers and doubles share: its place, or its double's, in the
total order of doubles. -/
def numberKey : Value → Int
  | .int n => (Double.ofInt n.toInt).totalKey
  | .float x => x.totalKey
  | _ => 0

/-- Two numbers whose integers are exact compare by their places among the doubles. -/
theorem queryCmp_numbers {a b : Value} (number : a.queryRank = 1) (number' : b.queryRank = 1)
    (exact : a.IntsExact) (exact' : b.IntsExact) : queryCmp a b = compare a.numberKey b.numberKey := by
  rcases number_of_queryRank number with ⟨m, rfl⟩ | ⟨x, rfl⟩ <;>
    rcases number_of_queryRank number' with ⟨n, rfl⟩ | ⟨y, rfl⟩
  · have small := every_self exact
    have small' := every_self exact'
    simp only [exactHere, decide_eq_true_eq] at small small'
    exact (Double.compare_ofInt small small').symm
  all_goals rfl

theorem chains_numbers {a b c : Value} (number : a.queryRank = 1) (number' : b.queryRank = 1)
    (number'' : c.queryRank = 1) (exact : a.IntsExact) (exact' : b.IntsExact) (exact'' : c.IntsExact) :
    Chains (queryCmp a b) (queryCmp b c) (queryCmp a c) := by
  rw [queryCmp_numbers number number' exact exact', queryCmp_numbers number' number'' exact' exact'',
    queryCmp_numbers number number'' exact exact'']
  exact chains_of_transCmp compare _ _ _

theorem chains_of_rank {a b c : Value}
    (same : a.queryRank = b.queryRank → b.queryRank = c.queryRank →
      Chains (queryCmp a b) (queryCmp b c) (queryCmp a c)) :
    Chains (queryCmp a b) (queryCmp b c) (queryCmp a c) := by
  rw [queryCmp_eq_then a b, queryCmp_eq_then b c, queryCmp_eq_then a c]
  exact (chains_of_transCmp compare _ _ _).then fun ab bc =>
    same (Std.LawfulEqCmp.eq_of_compare ab) (Std.LawfulEqCmp.eq_of_compare bc)

/-- The query order chains on values whose integers are exact: there it is a total preorder. -/
theorem chains_queryCmp {a b c : Value} (exact : a.IntsExact) (exact' : b.IntsExact) (exact'' : c.IntsExact) :
    Chains (queryCmp a b) (queryCmp b c) (queryCmp a c) := by
  induction a generalizing b c with
  | null =>
    refine chains_of_rank fun same same' => ?_
    obtain rfl := eq_null_of_queryRank same.symm
    obtain rfl := eq_null_of_queryRank same'.symm
    decide
  | bool p =>
    refine chains_of_rank fun same same' => ?_
    obtain ⟨q, rfl⟩ := bool_of_queryRank same.symm
    obtain ⟨r, rfl⟩ := bool_of_queryRank same'.symm
    exact chains_of_transCmp compare p q r
  | int n => exact chains_of_rank fun same same' =>
      chains_numbers rfl same.symm (same.trans same').symm exact exact' exact''
  | float x => exact chains_of_rank fun same same' =>
      chains_numbers rfl same.symm (same.trans same').symm exact exact' exact''
  | bytes bs =>
    refine chains_of_rank fun same same' => ?_
    obtain ⟨cs, rfl⟩ := bytes_of_queryRank same.symm
    obtain ⟨ds, rfl⟩ := bytes_of_queryRank same'.symm
    show Chains ((compare bs.length cs.length).then (compareBytes bs cs))
      ((compare cs.length ds.length).then (compareBytes cs ds)) ((compare bs.length ds.length).then (compareBytes bs ds))
    rw [compareBytes_eq_compareLex, compareBytes_eq_compareLex, compareBytes_eq_compareLex]
    exact (chains_of_transCmp compare _ _ _).then fun _ _ => chains_of_transCmp (List.compareLex compare) bs cs ds
  | text s =>
    refine chains_of_rank fun same same' => ?_
    obtain ⟨t, rfl⟩ := text_of_queryRank same.symm
    obtain ⟨u, rfl⟩ := text_of_queryRank same'.symm
    exact chains_of_transCmp compare s t u
  | array xs ih =>
    refine chains_of_rank fun same same' => ?_
    obtain ⟨ys, rfl⟩ := array_of_queryRank same.symm
    obtain ⟨zs, rfl⟩ := array_of_queryRank same'.symm
    show Chains (queryItems xs ys) (queryItems ys zs) (queryItems xs zs)
    rw [queryItems_eq_compareLex, queryItems_eq_compareLex, queryItems_eq_compareLex]
    exact chains_compareLex fun x mx y my z mz =>
      ih x mx (intsExact_array.mp exact x mx) (intsExact_array.mp exact' y my) (intsExact_array.mp exact'' z mz)
  | map es ih =>
    refine chains_of_rank fun same same' => ?_
    obtain ⟨fs, rfl⟩ := map_of_queryRank same.symm
    obtain ⟨gs, rfl⟩ := map_of_queryRank same'.symm
    show Chains (queryEntries es fs) (queryEntries fs gs) (queryEntries es gs)
    rw [queryEntries_eq_compareLex, queryEntries_eq_compareLex, queryEntries_eq_compareLex]
    refine chains_compareLex fun p mp q mq r mr => ?_
    obtain ⟨key, value⟩ := intsExact_map.mp exact p mp
    obtain ⟨key', value'⟩ := intsExact_map.mp exact' q mq
    obtain ⟨key'', value''⟩ := intsExact_map.mp exact'' r mr
    exact ((ih p mp).1 key key' key'').then fun _ _ => (ih p mp).2 value value' value''

/-- Past `2 ^ 53` integers are not exact, and equality in the query order stops chaining: `2 ^ 53 + 1`
rounds to the double `2 ^ 53`, which equals the integer `2 ^ 53`, yet the two integers differ. -/
example :
    queryCmp (.int 9007199254740993) (.float ⟨0x4340000000000000⟩) = .eq ∧
      queryCmp (.float ⟨0x4340000000000000⟩) (.int 9007199254740992) = .eq ∧
      queryCmp (.int 9007199254740993) (.int 9007199254740992) = .gt := by
  decide +kernel

theorem transCmp_queryCmp : Std.TransCmp fun a b : {v : Value // v.IntsExact} => queryCmp a.1 b.1 :=
  { eq_swap := fun {a b} => queryCmp_swap b.1 a.1
    isLE_trans := fun {a b c} => (chains_queryCmp a.2 b.2 c.2).1 }

theorem beqItems_iff {xs ys : List Value} :
    beqItems xs ys = true ↔ List.Forall₂ (fun x y => beq x y = true) xs ys := by
  induction xs generalizing ys with
  | nil => cases ys <;> simp [beqItems]
  | cons x xs ih => cases ys <;> simp [beqItems, ih]

theorem beqEntries_iff {es fs : List (Value × Value)} :
    beqEntries es fs = true ↔ List.Forall₂ (fun p q => beq p.1 q.1 = true ∧ beq p.2 q.2 = true) es fs := by
  induction es generalizing fs with
  | nil => cases fs <;> simp [beqEntries]
  | cons e es ih =>
    obtain ⟨k, v⟩ := e
    cases fs with
    | nil => simp [beqEntries]
    | cons f fs =>
      obtain ⟨k', v'⟩ := f
      simp [beqEntries, ih, and_assoc]

/-- Numerically equal doubles neither of which is `-0.0` are one double. -/
theorem eq_of_ieeeEq {x y : Double} (same : x.ieeeEq y = true) (free : x.bits ≠ Double.signMask)
    (free' : y.bits ≠ Double.signMask) : x = y := by
  obtain ⟨a⟩ := x
  obtain ⟨b⟩ := y
  simp only [Double.ieeeEq, Bool.and_eq_true, Bool.or_eq_true, beq_iff_eq] at same
  obtain ⟨-, bits | ⟨zero, zero'⟩⟩ := same
  · rw [bits]
  · have zero := ((Cbor.isZero_iff _).mp zero).resolve_right free
    have zero' := ((Cbor.isZero_iff _).mp zero').resolve_right free'
    simp only at zero zero'
    rw [zero, zero']

/-- Equal documents are equal in the query order, unless one holds `-0.0` somewhere: that double
equals `0.0` but comes before it. -/
theorem queryCmp_eq_of_beq {a b : Value} (free : a.NegativeZeroFree) (free' : b.NegativeZeroFree)
    (same : beq a b = true) : queryCmp a b = .eq := by
  induction a generalizing b with
  | float x =>
    cases b with
    | float y =>
      have notNegative := every_self free
      have notNegative' := every_self free'
      simp only [negativeZeroFreeHere, bne_iff_ne, ne_eq] at notNegative notNegative'
      rw [eq_of_ieeeEq same notNegative notNegative']
      exact queryCmp_self _
    | _ => simp [beq] at same
  | array xs ih =>
    cases b with
    | array ys =>
      show queryItems xs ys = .eq
      rw [queryItems_eq_compareLex]
      exact compareLex_eq_of_forall₂ (fun x mx y my related => ih x mx (negativeZeroFree_array.mp free x mx)
        (negativeZeroFree_array.mp free' y my) related) (beqItems_iff.mp same)
    | _ => simp [beq] at same
  | map es ih =>
    cases b with
    | map fs =>
      show queryEntries es fs = .eq
      rw [queryEntries_eq_compareLex]
      refine compareLex_eq_of_forall₂ (fun p mp q mq related => ?_) (beqEntries_iff.mp same)
      obtain ⟨key, value⟩ := negativeZeroFree_map.mp free p mp
      obtain ⟨key', value'⟩ := negativeZeroFree_map.mp free' q mq
      rw [entryCmp, (ih p mp).1 key key' related.1, (ih p mp).2 value value' related.2]
      rfl
    | _ => simp [beq] at same
  | _ =>
    cases b <;> simp [beq] at same
    all_goals first | exact queryCmp_self _ | (subst same; exact queryCmp_self _)

theorem sameKind_of_beq {a b : Value} (same : beq a b = true) : sameKind a b = true := by
  cases a <;> cases b <;> simp_all [beq, sameKind]

theorem queryEq_of_beq {a b : Value} (free : a.NegativeZeroFree) (free' : b.NegativeZeroFree)
    (same : (a == b) = true) : queryEq a b = true := by
  have same : beq a b = true := same
  simp [queryEq, sameKind_of_beq same, queryCmp_eq_of_beq free free' same]

theorem isLE_swap (o : Ordering) : o.swap.isLE = true ↔ o ≠ .lt := by
  cases o <;> simp [Ordering.swap]

/-- Lower bounds select upward: among values of the bound's kind, one at or above a value that a
greater-than (or at-least) bound selects is selected too. -/
theorem fieldCompares_above {x y bound : Value} (exact : x.IntsExact) (exact' : y.IntsExact)
    (exactBound : bound.IntsExact) (kind : y.sameKind bound = true) (le : (queryCmp x y).isLE = true) :
    (Filter.fieldCompares (some x) bound (· == .gt) = true → Filter.fieldCompares (some y) bound (· == .gt) = true) ∧
      (Filter.fieldCompares (some x) bound (· != .lt) = true → Filter.fieldCompares (some y) bound (· != .lt) = true) := by
  have chains := chains_queryCmp exactBound exact exact'
  simp only [Filter.fieldCompares, kind, Bool.true_and, Bool.and_eq_true, beq_iff_eq, bne_iff_ne, ne_eq]
  rw [queryCmp_swap x bound, queryCmp_swap y bound] at chains
  refine ⟨fun selected => ?_, fun selected => ?_⟩
  · obtain ⟨-, above⟩ := selected
    exact Ordering.swap_eq_lt.mp (chains.2.1 (by rw [above]; rfl) le)
  · obtain ⟨-, notBelow⟩ := selected
    exact (isLE_swap _).mp (chains.1 ((isLE_swap _).mpr notBelow) le)

/-- Upper bounds select downward: among values of the bound's kind, one at or below a value that a
less-than (or at-most) bound selects is selected too. -/
theorem fieldCompares_below {x y bound : Value} (exact : x.IntsExact) (exact' : y.IntsExact)
    (exactBound : bound.IntsExact) (kind : x.sameKind bound = true) (le : (queryCmp x y).isLE = true) :
    (Filter.fieldCompares (some y) bound (· == .lt) = true → Filter.fieldCompares (some x) bound (· == .lt) = true) ∧
      (Filter.fieldCompares (some y) bound (· != .gt) = true → Filter.fieldCompares (some x) bound (· != .gt) = true) := by
  have chains := chains_queryCmp exact exact' exactBound
  simp only [Filter.fieldCompares, kind, Bool.true_and, Bool.and_eq_true, beq_iff_eq, bne_iff_ne, ne_eq]
  refine ⟨fun selected => chains.2.2.1 le selected.2, fun selected => ?_⟩
  exact Ordering.isLE_iff_ne_gt.mp (chains.1 le (Ordering.isLE_iff_ne_gt.mpr selected.2))

end Value

namespace SortKey

/-- The value a key reads from a document: the field at its path, or null where there is none. -/
def sortValue (k : SortKey) (d : Value) : Value := (d.getPath? k.field).getD .null

theorem compare_eq (k : SortKey) (a b : Value) :
    k.compare a b =
      if k.ascending then (k.sortValue a).queryCmp (k.sortValue b) else ((k.sortValue a).queryCmp (k.sortValue b)).swap :=
  rfl

theorem compare_swap (k : SortKey) (a b : Value) : k.compare b a = (k.compare a b).swap := by
  rw [compare_eq, compare_eq, Value.queryCmp_swap (k.sortValue a)]
  split <;> rfl

theorem chains_compare (k : SortKey) {a b c : Value} (exact : (k.sortValue a).IntsExact)
    (exact' : (k.sortValue b).IntsExact) (exact'' : (k.sortValue c).IntsExact) :
    Chains (k.compare a b) (k.compare b c) (k.compare a c) := by
  rw [compare_eq, compare_eq, compare_eq]
  split
  · exact Value.chains_queryCmp exact exact' exact''
  · rw [← Value.queryCmp_swap, ← Value.queryCmp_swap, ← Value.queryCmp_swap]
    exact (Value.chains_queryCmp exact'' exact' exact).comm

end SortKey

theorem SortKey.sortValue_plain (k : SortKey) (d : Value) (plain : '.' ∉ k.field.toList) :
    k.sortValue d = (d.get? k.field).getD .null := by
  rw [SortKey.sortValue, Value.getPath?_plain d plain]

/-- A document every key of a sort reads an exact value from. -/
def SortableBy (keys : List SortKey) (d : Value) : Prop := ∀ k ∈ keys, (k.sortValue d).IntsExact

instance (keys : List SortKey) : DecidablePred (SortableBy keys) :=
  fun d => inferInstanceAs (Decidable (∀ k ∈ keys, (k.sortValue d).IntsExact))

theorem compareDocuments_swap (keys : List SortKey) (a b : Value) :
    compareDocuments keys b a = (compareDocuments keys a b).swap := by
  induction keys with
  | nil => rfl
  | cons k ks ih => rw [compareDocuments, compareDocuments, Ordering.swap_then, ih, k.compare_swap]

/-- Sorting by keys chains on the documents the keys read exact values from. -/
theorem chains_compareDocuments {keys : List SortKey} {a b c : Value} (sortable : SortableBy keys a)
    (sortable' : SortableBy keys b) (sortable'' : SortableBy keys c) :
    Chains (compareDocuments keys a b) (compareDocuments keys b c) (compareDocuments keys a c) := by
  induction keys with
  | nil => exact (by decide : Chains .eq .eq .eq)
  | cons k ks ih =>
    have first := k.chains_compare (sortable k (by simp)) (sortable' k (by simp)) (sortable'' k (by simp))
    exact first.then fun _ _ => ih (fun k' member => sortable k' (by simp [member]))
      (fun k' member => sortable' k' (by simp [member])) (fun k' member => sortable'' k' (by simp [member]))

theorem transCmp_compareDocuments (keys : List SortKey) :
    Std.TransCmp fun a b : {d : Value // SortableBy keys d} => compareDocuments keys a.1 b.1 :=
  { eq_swap := fun {a b} => compareDocuments_swap keys b.1 a.1
    isLE_trans := fun {a b c} => (chains_compareDocuments a.2 b.2 c.2).1 }

/-- The test a sort by keys makes: `a` comes before `b`. -/
def byKeys (keys : List SortKey) (a b : Value) : Bool := compareDocuments keys a b == .lt

/-- Documents in the order of sort keys, ties in the order they came: their stable sort. -/
def sortedBy (keys : List SortKey) (docs : List Value) : List Value := docs.mergeSort (Sorting.le (byKeys keys))

theorem compareDocuments_self (keys : List SortKey) (d : Value) : compareDocuments keys d d = .eq := by
  have swapped := compareDocuments_swap keys d d
  cases outcome : compareDocuments keys d d
  · rw [outcome] at swapped
    cases swapped
  · rfl
  · rw [outcome] at swapped
    cases swapped

theorem le_byKeys (keys : List SortKey) (a b : Value) :
    Sorting.le (byKeys keys) a b = (compareDocuments keys a b).isLE := by
  rw [Sorting.le, byKeys, compareDocuments_swap]
  cases compareDocuments keys a b <;> rfl

theorem byKeys_eq_false_iff (keys : List SortKey) (a b : Value) :
    byKeys keys b a = false ↔ (compareDocuments keys a b).isLE = true := by
  rw [← le_byKeys, Sorting.le, Bool.not_eq_true']

theorem strictWeak_byKeys (keys : List SortKey) : Sorting.StrictWeak (byKeys keys) (SortableBy keys) where
  irrefl _ := by simp [byKeys, compareDocuments_self]
  trans ga gb gc ab bc := by
    simp only [byKeys, beq_iff_eq] at ab bc ⊢
    exact (chains_compareDocuments ga gb gc).2.1 ab (by rw [bc]; rfl)
  not_trans ga gb gc ba cb := by
    rw [byKeys_eq_false_iff] at ba cb ⊢
    exact (chains_compareDocuments ga gb gc).1 ba cb

theorem sortedBy_nil (docs : List Value) : sortedBy [] docs = docs :=
  List.mergeSort_of_pairwise (List.pairwise_of_forall fun _ _ => rfl)

theorem sortedBy_pairwise {keys : List SortKey} {docs : List Value} (sortable : ∀ d ∈ docs, SortableBy keys d) :
    (sortedBy keys docs).Pairwise fun x y => (compareDocuments keys x y).isLE = true := by
  have sorted := (Sorting.isStableSort_mergeSort (strictWeak_byKeys keys) sortable).sorted
  simpa only [sortedBy, le_byKeys] using sorted

theorem sort_byKeys {keys : List SortKey} {docs : List Value} (sortable : ∀ d ∈ docs, SortableBy keys d) :
    Sorting.sort (fun a b => compareDocuments keys a b == .lt) ⟨false⟩ docs = some (sortedBy keys docs) :=
  Sorting.sort_eq_mergeSort (strictWeak_byKeys keys) ⟨false⟩ sortable

namespace Database.Collection

theorem arrange_unsorted (skip : Nat) (limit : Option Nat) (xs : List Value) :
    ∃ found, arrange { skip, limit } xs = some found ∧ found <+: xs.drop skip := by
  cases limit with
  | none => exact ⟨_, rfl, List.prefix_refl _⟩
  | some l =>
    by_cases zero : l = 0
    · exact ⟨_, if_pos zero, List.prefix_refl _⟩
    · exact ⟨_, if_neg zero, List.take_prefix _ _⟩

/-- Arranging documents every key of the sort reads exact values from answers, past the skipped ones,
a prefix of their stable sort by those keys. -/
theorem arrange_prefix {o : FindOptions} {selected : List Value} (sortable : ∀ d ∈ selected, SortableBy o.sort d) :
    ∃ found, arrange o selected = some found ∧ found <+: (sortedBy o.sort selected).drop o.skip := by
  have staged : arrange o selected = arrange { skip := o.skip, limit := o.limit } (sortedBy o.sort selected) := by
    by_cases empty : o.sort = []
    · obtain ⟨sort, skip, limit⟩ := o
      subst empty
      rw [sortedBy_nil]
    · unfold arrange
      rw [if_neg (by simpa using empty), sort_byKeys sortable]
      rfl
  rw [staged]
  exact arrange_unsorted o.skip o.limit _

/-- A find whose sort keys read exact values from every document its filter admits answers, past
the skipped ones, a prefix of those documents in the keys' order. -/
theorem find_sorted (c : Collection) (f : Filter) (o : FindOptions)
    (sortable : ∀ d ∈ c.values, f.admits d = true → SortableBy o.sort d) :
    ∃ sorted found : List Value, sorted.Perm (c.values.filter f.admits) ∧
      sorted.Pairwise (fun x y => (compareDocuments o.sort x y).isLE = true) ∧
      c.find f o = some found ∧ found <+: sorted.drop o.skip := by
  have selected : ∀ d ∈ c.values.filter f.admits, SortableBy o.sort d := fun d member =>
    sortable d (List.mem_filter.mp member).1 (List.mem_filter.mp member).2
  obtain ⟨found, arranged, leading⟩ := arrange_prefix selected
  exact ⟨_, found, List.mergeSort_perm _ _, sortedBy_pairwise selected, arranged, leading⟩

end Database.Collection

/-- The query order is antisymmetric on all values. On values whose integers a double holds
exactly it chains as a total preorder does, and so does sorting by keys on the documents those keys
read such values from: a find sorted by such keys answers what its filter admits in their order.
Equal documents are equal in it away from `-0.0`, so an equality filter matches every equal value; a
lower bound `c` selects upward and an upper bound downward among values of its kind. -/
theorem query_order_total_preorder (a b c : Value) (keys : List SortKey) :
    b.queryCmp a = (a.queryCmp b).swap ∧
      (a.IntsExact → b.IntsExact → c.IntsExact → Chains (a.queryCmp b) (b.queryCmp c) (a.queryCmp c)) ∧
      (a.NegativeZeroFree → b.NegativeZeroFree → (a == b) = true → a.queryEq b = true) ∧
      compareDocuments keys b a = (compareDocuments keys a b).swap ∧
      (SortableBy keys a → SortableBy keys b → SortableBy keys c →
        Chains (compareDocuments keys a b) (compareDocuments keys b c) (compareDocuments keys a c)) ∧
      (∀ (coll : Database.Collection) (f : Filter) (o : FindOptions), o.sort = keys →
        (∀ d ∈ coll.values, f.admits d = true → SortableBy keys d) →
        ∃ sorted found : List Value, sorted.Perm (coll.values.filter f.admits) ∧
          sorted.Pairwise (fun x y => (compareDocuments keys x y).isLE = true) ∧
          coll.find f o = some found ∧ found <+: sorted.drop o.skip) ∧
      (a.IntsExact → b.IntsExact → c.IntsExact → (a.queryCmp b).isLE = true →
        (b.sameKind c = true →
          (Filter.fieldCompares (some a) c (· == .gt) = true → Filter.fieldCompares (some b) c (· == .gt) = true) ∧
          (Filter.fieldCompares (some a) c (· != .lt) = true → Filter.fieldCompares (some b) c (· != .lt) = true)) ∧
        (a.sameKind c = true →
          (Filter.fieldCompares (some b) c (· == .lt) = true → Filter.fieldCompares (some a) c (· == .lt) = true) ∧
          (Filter.fieldCompares (some b) c (· != .gt) = true → Filter.fieldCompares (some a) c (· != .gt) = true))) :=
  ⟨Value.queryCmp_swap a b, Value.chains_queryCmp, Value.queryEq_of_beq, compareDocuments_swap keys a b,
    chains_compareDocuments, fun coll f o sorts sortable => by
      subst sorts
      exact coll.find_sorted f o sortable,
    fun exact exact' exactBound le =>
      ⟨fun kind => Value.fieldCompares_above exact exact' exactBound kind le,
        fun kind => Value.fieldCompares_below exact exact' exactBound kind le⟩⟩

/-- Three levels, an integer, a double and an integer, sorted ascending by a level key. -/
theorem query_order_total_preorder_on_levels :
    let a := Value.map [(.text "level", .int 1)]
    let b := Value.map [(.text "level", .float ⟨0x4000000000000000⟩)]
    let c := Value.map [(.text "level", .int 3)]
    let keys := [({ field := "level", ascending := true } : SortKey)]
    a.IntsExact ∧ b.IntsExact ∧ c.IntsExact ∧ a.NegativeZeroFree ∧ b.NegativeZeroFree ∧
      SortableBy keys a ∧ SortableBy keys b ∧ SortableBy keys c ∧
      (b.queryCmp a = (a.queryCmp b).swap ∧
        (a.IntsExact → b.IntsExact → c.IntsExact → Chains (a.queryCmp b) (b.queryCmp c) (a.queryCmp c)) ∧
        (a.NegativeZeroFree → b.NegativeZeroFree → (a == b) = true → a.queryEq b = true) ∧
        compareDocuments keys b a = (compareDocuments keys a b).swap ∧
        (SortableBy keys a → SortableBy keys b → SortableBy keys c →
          Chains (compareDocuments keys a b) (compareDocuments keys b c) (compareDocuments keys a c)) ∧
        (∀ (coll : Database.Collection) (f : Filter) (o : FindOptions), o.sort = keys →
          (∀ d ∈ coll.values, f.admits d = true → SortableBy keys d) →
          ∃ sorted found : List Value, sorted.Perm (coll.values.filter f.admits) ∧
            sorted.Pairwise (fun x y => (compareDocuments keys x y).isLE = true) ∧
            coll.find f o = some found ∧ found <+: sorted.drop o.skip) ∧
        (a.IntsExact → b.IntsExact → c.IntsExact → (a.queryCmp b).isLE = true →
          (b.sameKind c = true →
            (Filter.fieldCompares (some a) c (· == .gt) = true → Filter.fieldCompares (some b) c (· == .gt) = true) ∧
            (Filter.fieldCompares (some a) c (· != .lt) = true → Filter.fieldCompares (some b) c (· != .lt) = true)) ∧
          (a.sameKind c = true →
            (Filter.fieldCompares (some b) c (· == .lt) = true → Filter.fieldCompares (some a) c (· == .lt) = true) ∧
            (Filter.fieldCompares (some b) c (· != .gt) = true → Filter.fieldCompares (some a) c (· != .gt) = true)))) := by
  have sortable : ∀ v : Value, v.IntsExact →
      SortableBy [({ field := "level", ascending := true } : SortKey)] (.map [(.text "level", v)]) := by
    intro v exact k member
    rw [List.mem_singleton.mp member, SortKey.sortValue_plain _ _ (by decide)]
    exact exact
  exact ⟨by decide, by decide, by decide, by decide, by decide, sortable _ (by decide), sortable _ (by decide),
    sortable _ (by decide), query_order_total_preorder _ _ _ _⟩

/-- `-0.0` and `0.0` are equal documents, but `-0.0` comes first in the query order, so an equality
filter on one does not match the other. -/
theorem negative_zero_equal_but_below :
    (Value.float ⟨0x8000000000000000⟩ == .float ⟨0⟩) = true ∧
      Value.queryCmp (.float ⟨0x8000000000000000⟩) (.float ⟨0⟩) = .lt ∧
      Value.queryEq (.float ⟨0x8000000000000000⟩) (.float ⟨0⟩) = false := by
  decide

end GameVault
