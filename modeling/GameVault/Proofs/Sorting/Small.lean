import Mathlib
import GameVault.Sorting.Hybrid
import GameVault.Proofs.Sorting.Stable

namespace GameVault

namespace Sorting

section Insertion

variable {α : Type} {lt : α → α → Bool} {good : α → Prop} (swo : StrictWeak lt good)
include swo

/-- Inserting a value after a sorted list merges it in: the values the insertion steps past are
those greater than it, a suffix of the list. -/
theorem insertTail_eq_merge {s : List α} {x : α} (goodS : ∀ a ∈ s, good a) (gx : good x)
    (sorted : s.Pairwise fun a b => le lt a b = true) : insertTail lt s x = s.merge [x] (le lt) := by
  have split : (s.reverse.dropWhile (lt x ·)).reverse ++ (s.reverse.takeWhile (lt x ·)).reverse = s := by
    rw [← List.reverse_append, List.takeWhile_append_dropWhile, List.reverse_reverse]
  have after : ∀ b ∈ (s.reverse.takeWhile (lt x ·)).reverse, lt x b = true := fun b m =>
    List.mem_takeWhile_imp (List.mem_reverse.mp m)
  have before : ∀ a ∈ (s.reverse.dropWhile (lt x ·)).reverse, le lt a x = true := by
    intro a m
    rw [List.mem_reverse] at m
    have kept : ∀ y ∈ s.reverse.dropWhile (lt x ·), good y := fun y my =>
      goodS y (List.mem_reverse.mp ((List.dropWhile_suffix _).subset my))
    have descending : (s.reverse.dropWhile (lt x ·)).Pairwise fun a b => le lt b a = true :=
      (List.pairwise_reverse.mpr sorted).sublist (List.dropWhile_suffix _).sublist
    have stop := List.head?_dropWhile_not (lt x ·) s.reverse
    cases dropped : s.reverse.dropWhile (lt x ·) with
    | nil => simp [dropped] at m
    | cons d ds =>
      simp only [dropped, List.head?_cons] at stop
      rw [dropped] at m kept descending
      have dx : le lt d x = true := by simp [le, stop]
      rcases List.mem_cons.mp m with rfl | later
      · exact dx
      · exact swo.le_trans (kept a m) (kept d List.mem_cons_self) gx (List.rel_of_pairwise_cons descending later) dx
  have merged := merge_singleton after before
  rw [split] at merged
  rw [merged]
  rfl

/-- Inserting values one after another into a stable sort of a list sorts the list followed by
them. -/
theorem isStableSort_insertAll {rest : List α} (goodRest : ∀ x ∈ rest, good x) :
    ∀ {xs s : List α}, (∀ x ∈ xs, good x) → IsStableSort lt good xs s →
      IsStableSort lt good (xs ++ rest) (insertAll lt s rest) := by
  induction rest with
  | nil => simp [insertAll]
  | cons x rest ih =>
    intro xs s goodX sorts
    have gx := goodRest x List.mem_cons_self
    have inserted : IsStableSort lt good (xs ++ [x]) (insertTail lt s x) := by
      rw [insertTail_eq_merge swo (sorts.same.forall_good goodX) gx sorts.sorted]
      exact IsStableSort.merge swo goodX (by simpa using gx) sorts (isStableSort_self (List.pairwise_singleton _ x))
    have goodMore : ∀ y ∈ xs ++ [x], good y := by
      simpa [or_imp, forall_and] using ⟨goodX, gx⟩
    have sorted := ih (fun y m => goodRest y (.tail _ m)) goodMore inserted
    rwa [List.append_assoc, List.singleton_append] at sorted

theorem isStableSort_insertionSort {xs : List α} (goodX : ∀ x ∈ xs, good x) :
    IsStableSort lt good xs (insertionSort lt xs) := by
  cases xs with
  | nil => exact isStableSort_self List.Pairwise.nil
  | cons x rest =>
    have first : IsStableSort lt good [x] [x] := isStableSort_self (List.pairwise_singleton _ x)
    exact isStableSort_insertAll swo (fun y m => goodX y (.tail _ m)) (by simpa using goodX x List.mem_cons_self) first

theorem insertionSort_eq_mergeSort {xs : List α} (goodX : ∀ x ∈ xs, good x) :
    insertionSort lt xs = xs.mergeSort (le lt) :=
  IsStableSort.unique swo goodX (isStableSort_insertionSort swo goodX) (isStableSort_mergeSort swo goodX)

end Insertion

section Total

variable {α : Type} {le : α → α → Bool} (total : ∀ a b, (le a b || le b a) = true)
  (trans : ∀ a b c, le a b = true → le b c = true → le a c = true)
include total trans

/-- Under a total and transitive test, "the second is not at most the first" is a strict weak order
on all values. -/
theorem strictWeak_of_total : StrictWeak (fun a b => !le b a) fun _ => True where
  irrefl {a} _ := by simpa using total a a
  trans {a b c} _ _ _ ab bc := by
    simp only [Bool.not_eq_eq_eq_not, Bool.not_true] at ab bc ⊢
    cases ca : le c a
    · rfl
    · have ba := total a b
      rw [ab, Bool.or_false] at ba
      rw [trans c a b ca ba] at bc
      cases bc
  not_trans {a b c} _ _ _ ba cb := by
    simp only [Bool.not_eq_false'] at ba cb ⊢
    exact trans a b c ba cb

/-- The library's merge sort by a total and transitive test is the insertion sort by it. -/
theorem mergeSort_eq_insertionSort (xs : List α) : xs.mergeSort le = insertionSort (fun a b => !le b a) xs := by
  have same : Sorting.le (fun a b => !le b a) = le := by
    funext a b
    simp [Sorting.le]
  rw [insertionSort_eq_mergeSort (strictWeak_of_total total trans) (fun _ _ => trivial), same]

end Total

section Four

variable {α β : Type} {lt : α → α → Bool} {good : α → Prop}

/-- On finitely many values, a strict weak order on all of them compares the numbers of values
below each. -/
theorem StrictWeak.lt_eq_rank [Fintype β] {lt : β → β → Bool} (swo : StrictWeak lt fun _ => True) (i j : β) :
    lt i j = decide ((Finset.univ.filter fun k => lt k i).card < (Finset.univ.filter fun k => lt k j).card) := by
  cases ij : lt i j
  · have below : (Finset.univ.filter fun k => lt k j) ⊆ Finset.univ.filter fun k => lt k i := by
      intro k
      simpa using fun kj => swo.lt_of_lt_of_le trivial trivial trivial kj (by simp [le, ij])
    simpa using Finset.card_le_card below
  · have below : (Finset.univ.filter fun k => lt k i) ⊂ Finset.univ.filter fun k => lt k j := by
      refine (Finset.ssubset_iff_of_subset fun k => ?_).mpr ⟨i, by simpa using ij, by simp [swo.irrefl trivial]⟩
      simpa using fun ki => swo.trans trivial trivial trivial ki ij
    simpa using Finset.card_lt_card below

theorem sortFour_ranks : ∀ a b c d : Fin 4,
    sortFour (fun i j : Fin 4 => decide (![a, b, c, d] i < ![a, b, c, d] j)) 0 1 2 3 =
      insertionSort (fun i j : Fin 4 => decide (![a, b, c, d] i < ![a, b, c, d] j)) [0, 1, 2, 3] := by
  decide

theorem sortFour_map (lt : α → α → Bool) (f : β → α) (a b c d : β) :
    sortFour lt (f a) (f b) (f c) (f d) = (sortFour (fun i j => lt (f i) (f j)) a b c d).map f := by
  simp only [sortFour, apply_ite f, List.map_cons, List.map_nil]

/-- The sort of four values by five comparisons sorts them stably. -/
theorem sortFour_eq_mergeSort (swo : StrictWeak lt good) {v0 v1 v2 v3 : α} (g0 : good v0) (g1 : good v1)
    (g2 : good v2) (g3 : good v3) : sortFour lt v0 v1 v2 v3 = [v0, v1, v2, v3].mergeSort (le lt) := by
  let f : Fin 4 → α := ![v0, v1, v2, v3]
  have goodF : ∀ i, good (f i) := fun i => by fin_cases i <;> assumption
  have order : StrictWeak (fun i j => lt (f i) (f j)) fun _ => True :=
    ⟨fun _ => swo.irrefl (goodF _), fun _ _ _ => swo.trans (goodF _) (goodF _) (goodF _),
      fun _ _ _ => swo.not_trans (goodF _) (goodF _) (goodF _)⟩
  let rank : Fin 4 → Fin 4 := fun i => ⟨(Finset.univ.filter fun k => lt (f k) (f i)).card, by
    refine lt_of_lt_of_le (Finset.card_lt_card (Finset.filter_ssubset.mpr ⟨i, by simp, ?_⟩)) (by simp)
    simp [swo.irrefl (goodF i)]⟩
  have ranked : (fun i j => lt (f i) (f j)) = fun i j => decide (![rank 0, rank 1, rank 2, rank 3] i <
      ![rank 0, rank 1, rank 2, rank 3] j) := by
    funext i j
    have vector : ∀ k, ![rank 0, rank 1, rank 2, rank 3] k = rank k := fun k => by fin_cases k <;> rfl
    rw [vector, vector, order.lt_eq_rank]
    rfl
  have onIndices := sortFour_ranks (rank 0) (rank 1) (rank 2) (rank 3)
  rw [← ranked, insertionSort_eq_mergeSort order (by simp)] at onIndices
  calc sortFour lt v0 v1 v2 v3 = (sortFour (fun i j => lt (f i) (f j)) 0 1 2 3).map f := sortFour_map lt f 0 1 2 3
    _ = ([0, 1, 2, 3].mergeSort (le fun i j => lt (f i) (f j))).map f := by rw [onIndices]
    _ = [v0, v1, v2, v3].mergeSort (le lt) := by rw [List.map_mergeSort (r := le fun i j => lt (f i) (f j)) (s := le lt) fun _ _ _ _ => rfl]; rfl

end Four

section Tagged

variable {α : Type} (lt : α → α → Bool)

/-- The merge of two lists with each value tagged by the list it comes from, `true` for the left
one. The tags count how much of each list a part of the merge holds. -/
def taggedMerge (l r : List α) : List (α × Bool) :=
  (l.map (·, true)).merge (r.map (·, false)) (le fun p q : α × Bool => lt p.1 q.1)

theorem map_taggedMerge (l r : List α) : (taggedMerge lt l r).map Prod.fst = l.merge r (le lt) := by
  rw [taggedMerge, List.map_merge (f := Prod.fst) (r := le fun p q : α × Bool => lt p.1 q.1) (s := le lt)
    fun _ _ _ _ => rfl]
  simp [Function.comp_def]

theorem length_taggedMerge (l r : List α) : (taggedMerge lt l r).length = l.length + r.length := by
  simp [taggedMerge]

theorem countP_taggedMerge (l r : List α) : (taggedMerge lt l r).countP (·.2) = l.length := by
  rw [taggedMerge, (List.merge_perm_append _).countP_eq, List.countP_append, List.countP_map, List.countP_map]
  simp [Function.comp_def]

theorem countP_not_taggedMerge (l r : List α) : (taggedMerge lt l r).countP (!·.2) = r.length := by
  rw [taggedMerge, (List.merge_perm_append _).countP_eq, List.countP_append, List.countP_map, List.countP_map]
  simp [Function.comp_def]

theorem taggedMerge_cons_cons (x y : α) (l r : List α) :
    taggedMerge lt (x :: l) (y :: r) =
      if le lt x y then (x, true) :: taggedMerge lt l (y :: r) else (y, false) :: taggedMerge lt (x :: l) r := by
  simp only [taggedMerge, List.map_cons]
  rw [List.cons_merge_cons]
  rfl

/-- The first value of a tagged merge is the first of the list its tag names. -/
theorem head_taggedMerge {l r : List α} {p : α × Bool} {rest : List (α × Bool)}
    (first : taggedMerge lt l r = p :: rest) :
    (p.2 = true → l.head? = some p.1) ∧ (p.2 = false → r.head? = some p.1) := by
  match l, r with
  | [], [] => simp [taggedMerge] at first
  | [], y :: r =>
    simp only [taggedMerge, List.map_nil, List.nil_merge, List.map_cons, List.cons.injEq] at first
    simp [← first.1]
  | x :: l, [] =>
    simp only [taggedMerge, List.map_nil, List.merge_right, List.map_cons, List.cons.injEq] at first
    simp [← first.1]
  | x :: l, y :: r =>
    rw [taggedMerge_cons_cons] at first
    split at first <;> simp [← (List.cons.inj first).1]

end Tagged

section Ends

variable {α : Type} {lt : α → α → Bool} {good : α → Prop}

/-- Tagging keeps the end of a merge of sorted lists: the greater of the last values, the right one
on a tie. -/
theorem taggedMerge_append_append (swo : StrictWeak lt good) {l r : List α} {x y : α}
    (goodL : ∀ a ∈ l ++ [x], good a) (goodR : ∀ b ∈ r ++ [y], good b)
    (sortedL : (l ++ [x]).Pairwise fun a b => le lt a b = true)
    (sortedR : (r ++ [y]).Pairwise fun a b => le lt a b = true) :
    taggedMerge lt (l ++ [x]) (r ++ [y]) =
      if lt y x then taggedMerge lt l (r ++ [y]) ++ [(x, true)]
      else taggedMerge lt (l ++ [x]) r ++ [(y, false)] := by
  have tagged := merge_append_append (swo.comap Prod.fst) (l := l.map (·, true)) (r := r.map (·, false))
    (x := (x, true)) (y := (y, false)) (by simpa using goodL) (by simpa using goodR)
    (by rw [show l.map (·, true) ++ [(x, true)] = (l ++ [x]).map (·, true) by simp, List.pairwise_map]; exact sortedL)
    (by rw [show r.map (·, false) ++ [(y, false)] = (r ++ [y]).map (·, false) by simp, List.pairwise_map]
        exact sortedR)
  simpa [taggedMerge] using tagged

theorem take_drop_of_drop_eq_cons {β : Type} {L : List β} {k : Nat} {p : β} {rest : List β}
    (h : L.drop k = p :: rest) : L.take (k + 1) = L.take k ++ [p] ∧ L.drop (k + 1) = rest := by
  constructor
  · rw [List.take_add_one, ← List.head?_drop, h]
    rfl
  · rw [List.drop_add_one_eq_tail_drop, h]
    rfl

/-- The value before the last `L.length - n` of a list. -/
theorem take_drop_of_take_eq_append {β : Type} {L : List β} {n : Nat} {M : List β} {p : β}
    (h : L.take n = M ++ [p]) (within : n ≤ L.length) : L.take (n - 1) = M ∧ L.drop (n - 1) = p :: L.drop n := by
  have len := congrArg List.length h
  simp only [List.length_take, List.length_append, List.length_singleton] at len
  have whole : L = M ++ p :: L.drop n := by
    conv_lhs => rw [← List.take_append_drop n L]
    rw [h, List.append_assoc, List.singleton_append]
  have pred : n - 1 = M.length := by omega
  rw [pred]
  constructor
  · conv_lhs => rw [whole]
    exact List.take_left' rfl
  · conv_lhs => rw [whole]
    exact List.drop_left' rfl

variable {src : Array α} {l r : List α}

theorem getD_left (halves : src.toList = l ++ r) {i : Nat} {x : α} (at_ : (l.drop i).head? = some x) (d : α) :
    src.getD i d = x := by
  rw [List.head?_drop] at at_
  have inL : i < l.length := (List.getElem?_eq_some_iff.mp at_).1
  rw [Array.getD_eq_getD_getElem?, ← Array.getElem?_toList, halves, List.getElem?_append_left inL, at_]
  rfl

theorem getD_right (halves : src.toList = l ++ r) {j : Nat} {y : α} (at_ : (r.drop j).head? = some y) (d : α) :
    src.getD (l.length + j) d = y := by
  rw [List.head?_drop] at at_
  rw [Array.getD_eq_getD_getElem?, ← Array.getElem?_toList, halves, List.getElem?_append_right (by omega),
    Nat.add_sub_cancel_left, at_]
  rfl

theorem getD_of_drop {v : Array α} {i : Nat} {x : α} {rest : List α} (segment : v.toList.drop i = x :: rest)
    (d : α) : v.getD i d = x := by
  have at_ := congrArg List.head? segment
  rw [List.head?_drop, Array.getElem?_toList] at at_
  rw [Array.getD_eq_getD_getElem?, at_]
  rfl

theorem take_one_drop {v : Array α} {k : Nat} (inside : k < v.size) (d : α) :
    (v.toList.drop k).take 1 = [v.getD k d] := by
  rw [List.drop_eq_getElem_cons (by simpa using inside)]
  simp [Array.getD, inside]

section Placed

/-- After `i + j` steps from the front, the first `i` values of the left half and the first `j` of
the right one are placed: the first `i + j` values of their merge. -/
structure FrontAt (lt : α → α → Bool) (l r : List α) (e : Ends α) (i j : Nat) : Prop where
  left : e.left = i
  right : e.right = l.length + j
  leftLe : i ≤ l.length
  rightLe : j ≤ r.length
  front : e.front.toList = ((taggedMerge lt l r).take (i + j)).map Prod.fst
  rest : (taggedMerge lt l r).drop (i + j) = taggedMerge lt (l.drop i) (r.drop j)

/-- After `i + j` steps from the back, the last `i` values of the left half and the last `j` of the
right one are placed: the last `i + j` values of their merge. -/
structure BackAt (lt : α → α → Bool) (l r : List α) (e : Ends α) (i j : Nat) : Prop where
  leftBack : e.leftBack = (l.length : Int) - 1 - i
  rightBack : e.rightBack = (l.length + r.length : Int) - 1 - j
  leftLe : i ≤ l.length
  rightLe : j ≤ r.length
  back : e.back = ((taggedMerge lt l r).drop (l.length + r.length - (i + j))).map Prod.fst
  rest : (taggedMerge lt l r).take (l.length + r.length - (i + j)) =
    taggedMerge lt (l.take (l.length - i)) (r.take (r.length - j))

/-- The front holds `i` values of the left half and `j` of the right one. -/
theorem FrontAt.counts {e : Ends α} {i j : Nat} (front : FrontAt lt l r e i j) :
    ((taggedMerge lt l r).take (i + j)).countP (·.2) = i ∧
      ((taggedMerge lt l r).take (i + j)).countP (!·.2) = j := by
  have whole := List.take_append_drop (i + j) (taggedMerge lt l r)
  have ofLeft := congrArg (List.countP (·.2)) whole
  have ofRight := congrArg (List.countP (!·.2)) whole
  rw [List.countP_append, front.rest, countP_taggedMerge, countP_taggedMerge, List.length_drop] at ofLeft
  rw [List.countP_append, front.rest, countP_not_taggedMerge, countP_not_taggedMerge, List.length_drop] at ofRight
  have := front.leftLe
  have := front.rightLe
  omega

theorem BackAt.counts {e : Ends α} {i j : Nat} (back : BackAt lt l r e i j) :
    ((taggedMerge lt l r).take (l.length + r.length - (i + j))).countP (·.2) = l.length - i ∧
      ((taggedMerge lt l r).take (l.length + r.length - (i + j))).countP (!·.2) = r.length - j := by
  rw [back.rest, countP_taggedMerge, countP_not_taggedMerge, List.length_take, List.length_take]
  omega

/-- The values placed at the front, then `x`, then the values placed at the back make the merge when
the front holds its first `k` values and `x` and the back the rest. -/
theorem Ends.assemble {e : Ends α} {k : Nat} {x : List α}
    (before : e.front.toList = ((taggedMerge lt l r).take k).map Prod.fst)
    (after : x ++ e.back = ((taggedMerge lt l r).drop k).map Prod.fst) :
    e.front ++ x.toArray ++ e.back.toArray = (l.merge r (le lt)).toArray := by
  apply Array.toList_inj.mp
  rw [Array.toList_append, Array.toList_append, before, List.append_assoc, List.toList_toArray,
    List.toList_toArray, after, ← List.map_append, List.take_append_drop, map_taggedMerge, List.toList_toArray]

end Placed

end Ends

section Steps

variable {α : Type} [Inhabited α] {lt : α → α → Bool} {good : α → Prop} {src : Array α} {l r : List α}

/-- A step from the front places the lesser of the two next values, the left one on a tie. -/
theorem FrontAt.step (halves : src.toList = l ++ r) {e : Ends α} {i j : Nat} (front : FrontAt lt l r e i j)
    (moreL : i < l.length) (moreR : j < r.length) :
    ∃ i' j', i' + j' = i + j + 1 ∧ FrontAt lt l r (mergeStep lt src e) i' j' := by
  obtain ⟨x, l', atL⟩ : ∃ x l', l.drop i = x :: l' := ⟨_, _, List.drop_eq_getElem_cons moreL⟩
  obtain ⟨y, r', atR⟩ : ∃ y r', r.drop j = y :: r' := ⟨_, _, List.drop_eq_getElem_cons moreR⟩
  have readL : src.getD e.left default = x := by
    rw [front.left]
    exact getD_left halves (by rw [atL]; rfl) _
  have readR : src.getD e.right default = y := by
    rw [front.right]
    exact getD_right halves (by rw [atR]; rfl) _
  have next := front.rest
  rw [atL, atR, taggedMerge_cons_cons] at next
  simp only [mergeStep, readL, readR]
  by_cases xy : le lt x y = true
  · rw [if_pos xy] at next
    obtain ⟨took, dropped⟩ := take_drop_of_drop_eq_cons next
    have took' : (!lt y x) = true := xy
    refine ⟨i + 1, j, by omega, by simp [took', front.left], by simp [took', front.right], by omega, front.rightLe, ?_, ?_⟩
    · simp [took', front.front, show i + 1 + j = i + j + 1 by omega, took]
    · rw [show i + 1 + j = i + j + 1 by omega, dropped, List.drop_add_one_eq_tail_drop, atL, atR]
      rfl
  · rw [if_neg xy] at next
    obtain ⟨took, dropped⟩ := take_drop_of_drop_eq_cons next
    have took' : (!lt y x) = false := by simpa [le] using xy
    refine ⟨i, j + 1, by omega, by simp [took', front.left], by simp [took', front.right]; omega, front.leftLe,
      by omega, ?_, ?_⟩
    · simp [took', front.front, show i + (j + 1) = i + j + 1 by omega, took]
    · rw [show i + (j + 1) = i + j + 1 by omega, dropped, List.drop_add_one_eq_tail_drop, atL, atR]
      rfl

/-- A step from the back places the greater of the two last values, the right one on a tie. -/
theorem BackAt.step (swo : StrictWeak lt good) (halves : src.toList = l ++ r) (goodL : ∀ a ∈ l, good a)
    (goodR : ∀ b ∈ r, good b) (sortedL : l.Pairwise fun a b => le lt a b = true)
    (sortedR : r.Pairwise fun a b => le lt a b = true) {e : Ends α} {i j : Nat} (back : BackAt lt l r e i j)
    (moreL : i < l.length) (moreR : j < r.length) :
    ∃ i' j', i' + j' = i + j + 1 ∧ BackAt lt l r (mergeStep lt src e) i' j' := by
  obtain ⟨m, lastL⟩ : ∃ m, l.length - i = m + 1 := ⟨l.length - i - 1, by omega⟩
  obtain ⟨n, lastR⟩ : ∃ n, r.length - j = n + 1 := ⟨r.length - j - 1, by omega⟩
  have takeL : l.take (l.length - i) = l.take m ++ [l[m]] := by
    rw [lastL, List.take_add_one, List.getElem?_eq_getElem (by omega)]
    rfl
  have takeR : r.take (r.length - j) = r.take n ++ [r[n]] := by
    rw [lastR, List.take_add_one, List.getElem?_eq_getElem (by omega)]
    rfl
  have readL : src.getD e.leftBack.toNat default = l[m] := by
    rw [back.leftBack, show ((l.length : Int) - 1 - i).toNat = m by omega]
    exact getD_left halves (by rw [List.head?_drop, List.getElem?_eq_getElem]) _
  have readR : src.getD e.rightBack.toNat default = r[n] := by
    rw [back.rightBack, show ((l.length + r.length : Int) - 1 - j).toNat = l.length + n by omega]
    exact getD_right halves (by rw [List.head?_drop, List.getElem?_eq_getElem]) _
  have next := back.rest
  rw [takeL, takeR, taggedMerge_append_append swo
    (by rw [← takeL]; exact fun a m => goodL a (List.mem_of_mem_take m))
    (by rw [← takeR]; exact fun b m => goodR b (List.mem_of_mem_take m))
    (by rw [← takeL]; exact sortedL.sublist (List.take_sublist _ _))
    (by rw [← takeR]; exact sortedR.sublist (List.take_sublist _ _))] at next
  have within : l.length + r.length - (i + j) ≤ (taggedMerge lt l r).length := by
    rw [length_taggedMerge]
    omega
  simp only [mergeStep, readL, readR]
  by_cases yx : lt r[n] l[m] = true
  · rw [if_pos yx] at next
    obtain ⟨took, dropped⟩ := take_drop_of_take_eq_append next within
    have fewer : l.length + r.length - (i + 1 + j) = l.length + r.length - (i + j) - 1 := by omega
    refine ⟨i + 1, j, by omega, ⟨?_, ?_, by omega, back.rightLe, ?_, ?_⟩⟩
    · simp only [yx, if_true, back.leftBack]
      omega
    · simp [yx, back.rightBack]
    · simp [yx, back.back, fewer, dropped]
    · rw [fewer, took, ← takeR, show l.length - (i + 1) = m by omega]
  · rw [if_neg yx] at next
    obtain ⟨took, dropped⟩ := take_drop_of_take_eq_append next within
    have fewer : l.length + r.length - (i + (j + 1)) = l.length + r.length - (i + j) - 1 := by omega
    refine ⟨i, j + 1, by omega, ⟨?_, ?_, back.leftLe, by omega, ?_, ?_⟩⟩
    · simp [yx, back.leftBack]
    · simp only [yx, Bool.false_eq_true, if_false, back.rightBack]
      omega
    · simp [yx, back.back, fewer, dropped]
    · rw [fewer, took, ← takeL, show r.length - (j + 1) = n by omega]

/-- After `k` steps from both ends, `k` at most the length of the left half, the front holds the
first `k` values of the merge and the back the last `k`. -/
theorem ends_after (swo : StrictWeak lt good) (halves : src.toList = l ++ r) (split : l.length = src.size / 2)
    (goodL : ∀ a ∈ l, good a) (goodR : ∀ b ∈ r, good b) (sortedL : l.Pairwise fun a b => le lt a b = true)
    (sortedR : r.Pairwise fun a b => le lt a b = true) (k : Nat) (within : k ≤ l.length) :
    ∃ i j i' j', i + j = k ∧ i' + j' = k ∧
      FrontAt lt l r ((List.range k).foldl (fun e _ => mergeStep lt src e)
        ⟨0, src.size / 2, (src.size / 2 : Nat) - 1, (src.size : Int) - 1, #[], []⟩) i j ∧
      BackAt lt l r ((List.range k).foldl (fun e _ => mergeStep lt src e)
        ⟨0, src.size / 2, (src.size / 2 : Nat) - 1, (src.size : Int) - 1, #[], []⟩) i' j' := by
  have size : src.size = l.length + r.length := by rw [← Array.length_toList, halves, List.length_append]
  induction k with
  | zero =>
    refine ⟨0, 0, 0, 0, rfl, rfl, ⟨rfl, by simp [split], by simp, by simp, by simp, by simp⟩,
      ⟨by simp [split], by simp [size], by simp, by simp, ?_, ?_⟩⟩
    · simp [List.drop_eq_nil_of_le, length_taggedMerge]
    · simp [List.take_of_length_le, length_taggedMerge]
  | succ k ih =>
    obtain ⟨i, j, i', j', sumF, sumB, front, back⟩ := ih (by omega)
    rw [List.range_succ, List.foldl_append, List.foldl_cons, List.foldl_nil]
    obtain ⟨a, b, sumF', front'⟩ := front.step halves (by omega) (by omega)
    obtain ⟨a', b', sumB', back'⟩ := back.step swo halves goodL goodR sortedL sortedR (by omega) (by omega)
    exact ⟨a, b, a', b', by omega, by omega, front', back'⟩

theorem mergeFromBothEnds_eq_merge (swo : StrictWeak lt good) (halves : src.toList = l ++ r)
    (split : l.length = src.size / 2) (goodL : ∀ a ∈ l, good a) (goodR : ∀ b ∈ r, good b)
    (sortedL : l.Pairwise fun a b => le lt a b = true) (sortedR : r.Pairwise fun a b => le lt a b = true) :
    mergeFromBothEnds lt src = some (l.merge r (le lt)).toArray := by
  obtain ⟨i, j, i', j', sumF, sumB, front, back⟩ :=
    ends_after swo halves split goodL goodR sortedL sortedR (src.size / 2) split.ge
  unfold mergeFromBothEnds
  dsimp only
  generalize List.foldl _ _ (List.range (src.size / 2)) = e at front back ⊢
  have size : src.size = l.length + r.length := by rw [← Array.length_toList, halves, List.length_append]
  have ⟨fromLeft, fromRight⟩ := front.counts
  have ⟨backLeft, backRight⟩ := back.counts
  have placed := front.front
  have placedBack := back.back
  rw [sumF] at fromLeft fromRight placed
  rw [sumB] at backLeft backRight placedBack
  have := front.left
  have := front.right
  have := back.leftBack
  have := back.rightBack
  split
  · rename_i odd
    obtain ⟨h, rest, middle⟩ : ∃ h rest, (taggedMerge lt l r).drop (src.size / 2) = h :: rest := by
      rw [← sumF, front.rest]
      refine List.exists_cons_of_ne_nil fun empty => ?_
      have := congrArg List.length empty
      rw [length_taggedMerge] at this
      simp at this
      omega
    obtain ⟨took, dropped⟩ := take_drop_of_drop_eq_cons middle
    have ⟨fromL, fromR⟩ := head_taggedMerge lt (front.rest.symm.trans (sumF ▸ middle))
    rw [show l.length + r.length - src.size / 2 = src.size / 2 + 1 by omega, took, List.countP_append] at backLeft backRight
    rw [show l.length + r.length - src.size / 2 = src.size / 2 + 1 by omega, dropped] at placedBack
    have after : [h.1] ++ e.back = ((taggedMerge lt l r).drop (src.size / 2)).map Prod.fst := by
      rw [middle, placedBack]
      rfl
    dsimp only
    cases tag : h.2
    · simp [tag] at backLeft backRight
      have readR : src.getD e.right default = h.1 := by
        rw [front.right]
        exact getD_right halves (fromR tag) _
      have stays : ¬ ((e.left : Int) < e.leftBack + 1) := by omega
      rw [if_neg stays, if_neg stays, if_neg stays, readR, if_pos (by simp only [Bool.and_eq_true, decide_eq_true_eq]; constructor <;> omega)]
      rw [← Ends.assemble placed after]
      rfl
    · simp [tag] at backLeft backRight
      have readL : src.getD e.left default = h.1 := by
        rw [front.left]
        exact getD_left halves (fromL tag) _
      have goes : (e.left : Int) < e.leftBack + 1 := by omega
      rw [if_pos goes, if_pos goes, if_pos goes, readL, if_pos (by simp only [Bool.and_eq_true, decide_eq_true_eq]; constructor <;> omega)]
      rw [← Ends.assemble placed after]
      rfl
  · rename_i even
    rw [show l.length + r.length - src.size / 2 = src.size / 2 by omega] at backLeft backRight placedBack
    dsimp only
    rw [if_pos (by simp only [Bool.and_eq_true, decide_eq_true_eq]; constructor <;> omega),
      ← Ends.assemble (x := []) placed (by rw [placedBack]; rfl), Array.append_empty]

end Steps

section Small

variable {α : Type} [Inhabited α] {lt : α → α → Bool} {good : α → Prop} (swo : StrictWeak lt good)
include swo

/-- The four values from position `i`, when there are four, sorted. -/
theorem sortFourAt_eq_mergeSort {v : Array α} {i : Nat} (goodV : ∀ x ∈ v.toList, good x)
    (within : i + 4 ≤ v.size) : sortFourAt lt v i = ((v.toList.drop i).take 4).mergeSort (le lt) := by
  have long : 4 ≤ (v.toList.drop i).length := by
    simp only [List.length_drop, Array.length_toList]
    omega
  rcases segment : v.toList.drop i with _ | ⟨x0, _ | ⟨x1, _ | ⟨x2, _ | ⟨x3, rest⟩⟩⟩⟩
  all_goals simp only [segment, List.length_nil, List.length_cons] at long
  any_goals omega
  have goodX : ∀ x ∈ x0 :: x1 :: x2 :: x3 :: rest, good x := fun x m =>
    goodV x (List.mem_of_mem_drop (segment ▸ m))
  have d1 : v.toList.drop (i + 1) = x1 :: x2 :: x3 :: rest := by
    rw [List.drop_add_one_eq_tail_drop, segment]
    rfl
  have d2 : v.toList.drop (i + 1 + 1) = x2 :: x3 :: rest := by
    rw [List.drop_add_one_eq_tail_drop, d1]
    rfl
  have d3 : v.toList.drop (i + 1 + 1 + 1) = x3 :: rest := by
    rw [List.drop_add_one_eq_tail_drop, d2]
    rfl
  rw [sortFourAt, getD_of_drop segment, getD_of_drop d1, getD_of_drop d2, getD_of_drop d3]
  exact sortFour_eq_mergeSort swo (goodX _ (by simp)) (goodX _ (by simp)) (goodX _ (by simp)) (goodX _ (by simp))

/-- The eight values from position `i`, when there are eight, sorted: two sorted fours merged from
both ends. -/
theorem sortEightAt_eq_mergeSort {v : Array α} {i : Nat} (goodV : ∀ x ∈ v.toList, good x)
    (within : i + 8 ≤ v.size) : sortEightAt lt v i = some (((v.toList.drop i).take 8).mergeSort (le lt)) := by
  have goodA : ∀ x ∈ (v.toList.drop i).take 4, good x := fun x m =>
    goodV x (List.mem_of_mem_drop (List.mem_of_mem_take m))
  have goodB : ∀ x ∈ (v.toList.drop (i + 4)).take 4, good x := fun x m =>
    goodV x (List.mem_of_mem_drop (List.mem_of_mem_take m))
  have sortsA := isStableSort_mergeSort swo goodA
  have sortsB := isStableSort_mergeSort swo goodB
  have eight : (v.toList.drop i).take 8 = (v.toList.drop i).take 4 ++ (v.toList.drop (i + 4)).take 4 := by
    rw [show 8 = 4 + 4 from rfl, List.take_add, List.drop_drop]
  have lengthA : (((v.toList.drop i).take 4).mergeSort (le lt)).length = 4 := by
    simp only [List.length_mergeSort, List.length_take, List.length_drop, Array.length_toList]
    omega
  have lengthB : (((v.toList.drop (i + 4)).take 4).mergeSort (le lt)).length = 4 := by
    simp only [List.length_mergeSort, List.length_take, List.length_drop, Array.length_toList]
    omega
  rw [sortEightAt, sortFourAt_eq_mergeSort swo goodV (by omega), sortFourAt_eq_mergeSort swo goodV (by omega),
    mergeFromBothEnds_eq_merge swo (List.toList_toArray ..) (by simp [lengthA, lengthB])
      (sortsA.same.forall_good goodA) (sortsB.same.forall_good goodB) sortsA.sorted sortsB.sorted]
  simp only [Option.pure_def, Option.bind_eq_bind, Option.bind_some, Option.some.injEq]
  rw [eight]
  exact (IsStableSort.merge swo goodA goodB sortsA sortsB).eq_mergeSort swo
    (by simpa [or_imp, forall_and] using ⟨goodA, goodB⟩)

/-- Presorted first blocks of the two halves, completed by insertion and merged from both ends, sort
the whole stably. -/
theorem mergeFromBothEnds_insertAll {v : Array α} {count : Nat} {first second : List α}
    (goodV : ∀ x ∈ v.toList, good x) (atMost : count ≤ v.size / 2)
    (sortsFirst : IsStableSort lt good (v.toList.take count) first)
    (sortsSecond : IsStableSort lt good ((v.toList.drop (v.size / 2)).take count) second) :
    mergeFromBothEnds lt (insertAll lt first (v.extract count (v.size / 2)).toList ++
      insertAll lt second (v.extract (v.size / 2 + count)).toList).toArray =
      some (v.toList.mergeSort (le lt)).toArray := by
  have restLeft : (v.extract count (v.size / 2)).toList = (v.toList.drop count).take (v.size / 2 - count) := by
    simp
  have restRight : (v.extract (v.size / 2 + count)).toList = v.toList.drop (v.size / 2 + count) := by
    simp only [Array.toList_extract, List.extract_eq_take_drop]
    exact List.take_of_length_le (by simp)
  have goodDrop : ∀ k n, ∀ x ∈ (v.toList.drop k).take n, good x := fun _ _ x m =>
    goodV x (List.mem_of_mem_drop (List.mem_of_mem_take m))
  rw [restLeft, restRight]
  have left : IsStableSort lt good (v.toList.take count ++ (v.toList.drop count).take (v.size / 2 - count))
      (insertAll lt first ((v.toList.drop count).take (v.size / 2 - count))) :=
    isStableSort_insertAll swo (goodDrop _ _) (fun x m => goodV x (List.mem_of_mem_take m)) sortsFirst
  rw [← List.take_add, Nat.add_sub_cancel' atMost] at left
  have right : IsStableSort lt good ((v.toList.drop (v.size / 2)).take count ++ v.toList.drop (v.size / 2 + count))
      (insertAll lt second (v.toList.drop (v.size / 2 + count))) :=
    isStableSort_insertAll swo (fun x m => goodV x (List.mem_of_mem_drop m)) (goodDrop _ _) sortsSecond
  have rightHalf : (v.toList.drop (v.size / 2)).take count ++ v.toList.drop (v.size / 2 + count) =
      v.toList.drop (v.size / 2) := by
    rw [← List.drop_drop, List.take_append_drop]
  rw [rightHalf] at right
  have goodLeft : ∀ x ∈ v.toList.take (v.size / 2), good x := fun x m => goodV x (List.mem_of_mem_take m)
  have goodRight : ∀ x ∈ v.toList.drop (v.size / 2), good x := fun x m => goodV x (List.mem_of_mem_drop m)
  have halfLength : (insertAll lt first ((v.toList.drop count).take (v.size / 2 - count))).length = v.size / 2 := by
    rw [← left.same.perm.length_eq, List.length_take, Array.length_toList]
    omega
  have rightLength : (insertAll lt second (v.toList.drop (v.size / 2 + count))).length = v.size - v.size / 2 := by
    rw [← right.same.perm.length_eq, List.length_drop, Array.length_toList]
  rw [mergeFromBothEnds_eq_merge swo List.toList_toArray (by simp [halfLength, rightLength]; omega)
    (left.same.forall_good goodLeft) (right.same.forall_good goodRight) left.sorted right.sorted]
  have whole := IsStableSort.merge swo goodLeft goodRight left right
  rw [List.take_append_drop] at whole
  rw [whole.eq_mergeSort swo goodV]

/-- The small sort sorts stably. -/
theorem smallSort_eq_mergeSort (p : Profile) {v : Array α} (goodV : ∀ x ∈ v.toList, good x) :
    smallSort lt p v = some (v.toList.mergeSort (le lt)).toArray := by
  have goodSeg : ∀ k n, ∀ x ∈ (v.toList.drop k).take n, good x := fun _ _ x m =>
    goodV x (List.mem_of_mem_drop (List.mem_of_mem_take m))
  unfold smallSort
  simp only
  split
  · rename_i tiny
    have sorted : v.toList.Pairwise fun a b => le lt a b = true := by
      match v.toList, (by simpa using tiny : v.toList.length < 2) with
      | [], _ => exact List.Pairwise.nil
      | [_], _ => exact List.pairwise_singleton _ _
    rw [List.mergeSort_of_pairwise sorted]
    rfl
  · rename_i two
    split
    · rename_i eight
      simp only [Bool.and_eq_true, decide_eq_true_eq] at eight
      rw [sortEightAt_eq_mergeSort swo goodV (by omega), sortEightAt_eq_mergeSort swo goodV (by omega)]
      exact mergeFromBothEnds_insertAll swo goodV (by omega)
        (by simpa using isStableSort_mergeSort swo (goodSeg 0 8)) (isStableSort_mergeSort swo (goodSeg _ _))
    · split
      · rw [sortFourAt_eq_mergeSort swo goodV (by omega), sortFourAt_eq_mergeSort swo goodV (by omega)]
        exact mergeFromBothEnds_insertAll swo goodV (by omega)
          (by simpa using isStableSort_mergeSort swo (goodSeg 0 4)) (isStableSort_mergeSort swo (goodSeg _ _))
      · have firstOne := take_one_drop (v := v) (k := 0) (by omega) default
        have secondOne := take_one_drop (v := v) (k := v.size / 2) (by omega) default
        rw [List.drop_zero] at firstOne
        have sortsFirst : IsStableSort lt good (v.toList.take 1) [v.getD 0 default] := by
          rw [firstOne]
          exact isStableSort_self (List.pairwise_singleton _ _)
        have sortsSecond : IsStableSort lt good ((v.toList.drop (v.size / 2)).take 1) [v.getD (v.size / 2) default] := by
          rw [secondOne]
          exact isStableSort_self (List.pairwise_singleton _ _)
        exact mergeFromBothEnds_insertAll swo goodV (by omega) sortsFirst sortsSecond

end Small

end Sorting

end GameVault
