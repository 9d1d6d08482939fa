import Mathlib
import GameVault.Proofs.Sorting.Small

namespace GameVault

namespace Sorting

section Arrays

variable {α : Type}

theorem toList_extract_eq (v : Array α) (start stop : Nat) :
    (v.extract start stop).toList = (v.toList.drop start).take (stop - start) := by
  rw [Array.toList_extract, List.extract_eq_take_drop]

theorem toList_extract_from (v : Array α) (start : Nat) : (v.extract start).toList = v.toList.drop start := by
  rw [toList_extract_eq, Array.size_eq_length_toList, List.take_of_length_le]
  simp

theorem toList_place (v : Array α) (start : Nat) (xs : Array α) :
    (place v start xs).toList = v.toList.take start ++ xs.toList ++ v.toList.drop (start + xs.size) := by
  rw [place, Array.toList_append, Array.toList_append, toList_extract_eq, toList_extract_eq, List.drop_zero,
    Nat.sub_zero, List.take_of_length_le (l := v.toList.drop (start + xs.size)) (by simp)]

theorem toList_place_over {v : Array α} {pre mid post : List α} {xs : Array α}
    (laid : v.toList = pre ++ mid ++ post) (sameLength : xs.size = mid.length) :
    (place v pre.length xs).toList = pre ++ xs.toList ++ post := by
  rw [toList_place, laid, sameLength, ← List.length_append, List.drop_left, List.append_assoc pre mid post,
    List.take_left, List.append_assoc]

theorem toList_extract_over {v : Array α} {pre mid post : List α} (laid : v.toList = pre ++ mid ++ post) :
    (v.extract pre.length (pre.length + mid.length)).toList = mid := by
  rw [toList_extract_eq, laid, List.append_assoc, List.drop_left, Nat.add_sub_cancel_left, List.take_left]

theorem laid_split {v : Array α} {pre xs : List α} {scan : Nat} (laid : v.toList = pre ++ xs.drop scan) (n : Nat) :
    v.toList = pre ++ (xs.drop scan).take n ++ xs.drop (scan + n) := by
  rw [laid, List.append_assoc, ← List.drop_drop, List.take_append_drop]

theorem toList_place_laid {v : Array α} {pre xs : List α} {scan : Nat} (laid : v.toList = pre ++ xs.drop scan)
    (placed : pre.length = scan) (n : Nat) {piece : Array α} (sameLength : piece.size = ((xs.drop scan).take n).length) :
    (place v scan piece).toList = pre ++ piece.toList ++ xs.drop (scan + n) := by
  subst placed
  exact toList_place_over (laid_split laid n) sameLength

end Arrays

section Merge

variable {α : Type} {lt : α → α → Bool}

/-- Merging from the front is the library's merge, whatever the order. -/
theorem merge_forward (l r : List α) (out : Array α) :
    (merge.forward lt l r out).toList = out.toList ++ l.merge r (le lt) := by
  fun_induction merge.forward lt l r out with
  | case1 l ls r rs out less ih =>
    rw [ih, List.cons_merge_cons_neg _ _ _ (by simp [le, less])]
    simp
  | case2 l ls r rs out notLess ih =>
    rw [ih, List.cons_merge_cons_pos _ _ _ (by simpa [le] using notLess)]
    simp
  | case3 ls rs out notBoth =>
    cases ls with
    | nil => simp
    | cons l ls =>
      cases rs with
      | nil => simp
      | cons r rs => exact (notBoth l ls r rs rfl rfl).elim

variable {good : α → Prop} (swo : StrictWeak lt good)
include swo

/-- Merging from the back over the reversed stretches is the library's merge of the two sorted
stretches: the back takes the greater of the two last values, the right one on a tie. -/
theorem merge_backward {ls rs : List α} (goodL : ∀ x ∈ ls, good x) (goodR : ∀ x ∈ rs, good x)
    (sortedL : ls.reverse.Pairwise fun a b => le lt a b = true)
    (sortedR : rs.reverse.Pairwise fun a b => le lt a b = true) (out : List α) :
    (merge.backward lt ls rs out).toList = ls.reverse.merge rs.reverse (le lt) ++ out := by
  fun_induction merge.backward lt ls rs out with
  | case1 l ls r rs out less ih =>
    have last := merge_append_append swo (l := ls.reverse) (r := rs.reverse) (x := l) (y := r)
      (fun a m => goodL a (List.mem_cons.mpr (by simpa [or_comm] using m)))
      (fun b m => goodR b (List.mem_cons.mpr (by simpa [or_comm] using m))) (by simpa using sortedL)
      (by simpa using sortedR)
    rw [ih (fun x m => goodL x (.tail _ m)) goodR (by simpa using sortedL.sublist (by simp)) sortedR]
    simp only [List.reverse_cons]
    rw [last, if_pos less]
    simp
  | case2 l ls r rs out notLess ih =>
    have last := merge_append_append swo (l := ls.reverse) (r := rs.reverse) (x := l) (y := r)
      (fun a m => goodL a (List.mem_cons.mpr (by simpa [or_comm] using m)))
      (fun b m => goodR b (List.mem_cons.mpr (by simpa [or_comm] using m))) (by simpa using sortedL)
      (by simpa using sortedR)
    rw [ih goodL (fun x m => goodR x (.tail _ m)) sortedL (by simpa using sortedR.sublist (by simp))]
    simp only [List.reverse_cons]
    rw [last, if_neg notLess]
    simp
  | case3 ls rs out notBoth =>
    cases ls with
    | nil => simp
    | cons l ls =>
      cases rs with
      | nil => simp
      | cons r rs => exact (notBoth l ls r rs rfl rfl).elim

/-- The merge of a stretch made of two sorted halves, forward or backward, is the library's merge
of the halves. -/
theorem merge_eq [Inhabited α] {v : Array α} {mid : Nat} (goodV : ∀ x ∈ v.toList, good x)
    (sortedL : (v.toList.take mid).Pairwise fun a b => le lt a b = true)
    (sortedR : (v.toList.drop mid).Pairwise fun a b => le lt a b = true) :
    (merge lt v mid).toList = (v.toList.take mid).merge (v.toList.drop mid) (le lt) := by
  have left : (v.extract 0 mid).toList = v.toList.take mid := by
    rw [toList_extract_eq]
    simp
  have right : (v.extract mid v.size).toList = v.toList.drop mid := toList_extract_from v mid
  unfold merge
  dsimp only
  split
  · rename_i empty
    rcases empty with rfl | long
    · simp
    · rw [List.take_of_length_le (by simpa using long), List.drop_of_length_le (by simpa using long)]
      simp
  · split
    · rw [merge_forward, left, right]
      simp
    · rw [left, right, merge_backward swo]
      · simp
      · exact fun x m => goodV x (List.mem_of_mem_take (List.mem_reverse.mp m))
      · exact fun x m => goodV x (List.mem_of_mem_drop (List.mem_reverse.mp m))
      · simpa using sortedL
      · simpa using sortedR

end Merge

section Existing

variable {α : Type}

theorem getD_eq_getElem_toList {v : Array α} {i : Nat} (inside : i < v.toList.length) (d : α) :
    v.getD i d = v.toList[i] := by
  simp [Array.getD_eq_getD_getElem?, Array.getElem?_eq_getElem (by simpa using inside)]

/-- The positions a run is extended over, taken from `2` on while a test holds: each of them passes
the test. -/
theorem continues_of_lt_count {len : Nat} {p : Nat → Bool} {i : Nat} (two : 2 ≤ i)
    (below : i < (((List.range len).drop 2).takeWhile p).length + 2) : p i = true := by
  have inside : i - 2 < (((List.range len).drop 2).takeWhile p).length := by omega
  have mem := List.getElem_mem inside
  have at_ : (((List.range len).drop 2).takeWhile p)[i - 2] = i := by
    rw [List.IsPrefix.getElem (List.takeWhile_prefix p), List.getElem_drop, List.getElem_range]
    omega
  rw [at_] at mem
  exact List.mem_takeWhile_imp mem

/-- A relation that holds of each value and the next holds of each value and every later one, where
it is transitive on the values of the list. -/
theorem pairwise_of_isChain {R : α → α → Prop} {l : List α}
    (trans : ∀ a ∈ l, ∀ b ∈ l, ∀ c ∈ l, R a b → R b c → R a c) (chain : List.IsChain R l) : l.Pairwise R := by
  induction l with
  | nil => exact .nil
  | cons a l ih =>
    cases l with
    | nil => exact List.pairwise_singleton R a
    | cons b l =>
      obtain ⟨ab, rest⟩ := List.isChain_cons_cons.mp chain
      have sorted := ih (fun x mx y my z mz => trans x (.tail _ mx) y (.tail _ my) z (.tail _ mz)) rest
      refine List.Pairwise.cons (fun c mc => ?_) sorted
      rcases List.mem_cons.mp mc with rfl | later
      · exact ab
      · exact trans a (by simp) b (by simp) c (by simp [later]) ab (List.rel_of_pairwise_cons sorted later)

variable [Inhabited α] {lt : α → α → Bool}

/-- A run found at the start of a stretch: it lies within the stretch, and each of its values is
less than the one before (a descending run) or not less (an ascending one). -/
theorem existingRun_spec (v : Array α) :
    (existingRun lt v).1 ≤ v.size ∧
      List.IsChain (fun a b => if (existingRun lt v).2 then lt b a = true else le lt a b = true)
        (v.toList.take (existingRun lt v).1) := by
  unfold existingRun
  dsimp only
  split
  · rename_i short
    refine ⟨le_refl _, List.isChain_iff_getElem.mpr fun j inside => ?_⟩
    simp at inside
    omega
  · rename_i long
    generalize direction : lt (v.getD 1 default) (v.getD 0 default) = descending
    have counted := (List.takeWhile_prefix (fun i => if descending = true then
        lt (v.getD i default) (v.getD (i - 1) default) else !lt (v.getD i default) (v.getD (i - 1) default))
      (l := (List.range v.size).drop 2)).length_le
    simp only [List.length_drop, List.length_range] at counted
    refine ⟨by omega, List.isChain_iff_getElem.mpr fun j inside => ?_⟩
    simp only [List.length_take, Array.length_toList] at inside
    rw [List.getElem_take, List.getElem_take]
    rcases j with _ | j
    · rw [getD_eq_getElem_toList (by simp; omega), getD_eq_getElem_toList (by simp; omega)] at direction
      cases descending <;> simpa [le] using direction
    · have passed := @continues_of_lt_count v.size (fun i => if descending = true then
        lt (v.getD i default) (v.getD (i - 1) default) else !lt (v.getD i default) (v.getD (i - 1) default))
        (j + 2) (by omega) (by omega)
      rw [getD_eq_getElem_toList (by simp; omega), show j + 2 - 1 = j + 1 by omega,
        getD_eq_getElem_toList (by simp; omega)] at passed
      cases descending <;> simpa [le] using passed

variable {good : α → Prop} (swo : StrictWeak lt good)
include swo

/-- A run found in the input, reversed if it descends, is the stable sort of its values: a
descending run has no two values that tie. -/
theorem existingRun_sorts {v : Array α} (goodV : ∀ x ∈ v.toList, good x) :
    (if (existingRun lt v).2 then (v.toList.take (existingRun lt v).1).reverse
      else v.toList.take (existingRun lt v).1) = (v.toList.take (existingRun lt v).1).mergeSort (le lt) := by
  obtain ⟨-, chain⟩ := @existingRun_spec α _ lt v
  generalize (existingRun lt v).1 = n at chain ⊢
  generalize (existingRun lt v).2 = descending at chain ⊢
  have goodRun : ∀ x ∈ v.toList.take n, good x := fun x m => goodV x (List.mem_of_mem_take m)
  cases descending
  · have sorted := pairwise_of_isChain (R := fun a b => le lt a b = true)
      (fun a ma b mb c mc => swo.le_trans (goodRun a ma) (goodRun b mb) (goodRun c mc)) (by simpa using chain)
    rw [if_neg (by decide), List.mergeSort_of_pairwise sorted]
  · have descending := pairwise_of_isChain (R := fun a b => lt b a = true)
      (fun a ma b mb c mc ba cb => swo.trans (goodRun c mc) (goodRun b mb) (goodRun a ma) cb ba)
      (by simpa using chain)
    rw [if_pos rfl]
    exact IsStableSort.eq_mergeSort swo goodRun (isStableSort_reverse swo goodRun descending)

end Existing

section Laying

variable {α : Type} (lt : α → α → Bool)

/-- A run lies over the values `orig` of the input as `shown`: it is as long as they are, and shows
their stable sort if it is sorted and the values as they came otherwise. -/
structure Covers (r : Run) (orig shown : List α) : Prop where
  length_eq : r.length = orig.length
  shown_eq : shown = if r.sorted then orig.mergeSort (le lt) else orig

/-- Runs waiting on a stack, the most recent first, lie side by side over `orig` as `shown`. -/
inductive Tiles : List (Run × Nat) → List α → List α → Prop
  | nil : Tiles [] [] []
  | cons {stack : List (Run × Nat)} {o s o' s' : List α} {r : Run} (d : Nat) :
      Tiles stack o s → Covers lt r o' s' → Tiles ((r, d) :: stack) (o ++ o') (s ++ s')

/-- The bottom run of a scan: the first run pushed, or the last run found while none is pushed. -/
def bottomRun (prev : Run) (stack : List (Run × Nat)) : Run := ((stack.getLast?).map Prod.fst).getD prev

/-- What the scan over runs keeps: the runs waiting and the run found last lie side by side over the
first `scan` values of the input `xs`, followed by `tail`; an eager scan has sorted each of them; and
the bottom run is the empty run the scan starts with. -/
structure Laid (xs : List α) (eager : Bool) (v : Array α) (scan : Nat) (prev : Run) (stack : List (Run × Nat))
    (tail : List α) : Prop where
  tiles : ∃ o s o' s', Tiles lt stack o s ∧ Covers lt prev o' s' ∧ o ++ o' = xs.take scan ∧
    v.toList = s ++ s' ++ tail
  within : scan ≤ xs.length
  eagerSorted : eager = true → prev.sorted = true ∧ ∀ e ∈ stack, e.1.sorted = true
  bottom : (bottomRun prev stack).length = 0

variable {lt}

theorem Covers.length_shown {r : Run} {orig shown : List α} (covers : Covers lt r orig shown) :
    shown.length = orig.length := by
  rw [covers.shown_eq]
  split
  · exact List.length_mergeSort _
  · rfl

theorem Tiles.length_eq {stack : List (Run × Nat)} {o s : List α} (tiles : Tiles lt stack o s) :
    s.length = o.length := by
  induction tiles with
  | nil => rfl
  | cons d _ covers ih => simp [ih, covers.length_shown]

theorem covers_sorted {n : Nat} {orig : List α} (length : n = orig.length) :
    Covers lt ⟨n, true⟩ orig (orig.mergeSort (le lt)) :=
  ⟨length, by simp⟩

theorem covers_unsorted {n : Nat} {orig : List α} (length : n = orig.length) : Covers lt ⟨n, false⟩ orig orig :=
  ⟨length, by simp⟩

end Laying

section MergeRuns

variable {α : Type} [Inhabited α] {lt : α → α → Bool} {good : α → Prop} (swo : StrictWeak lt good)
include swo

/-- Merging the stable sorts of two neighbouring stretches gives the stable sort of both. -/
theorem merge_sorted_halves {oL oR : List α} {l r : Array α} (goodL : ∀ x ∈ oL, good x) (goodR : ∀ x ∈ oR, good x)
    (left : l.toList = oL.mergeSort (le lt)) (right : r.toList = oR.mergeSort (le lt)) :
    (merge lt (l ++ r) oL.length).toList = (oL ++ oR).mergeSort (le lt) := by
  have halves : (l ++ r).toList.take oL.length = l.toList ∧ (l ++ r).toList.drop oL.length = r.toList := by
    have length : l.toList.length = oL.length := by rw [left, List.length_mergeSort]
    rw [Array.toList_append, ← length, List.take_left, List.drop_left]
    exact ⟨rfl, rfl⟩
  have sortsL := isStableSort_mergeSort swo goodL
  have sortsR := isStableSort_mergeSort swo goodR
  have goodLR : ∀ x ∈ (l ++ r).toList, good x := by
    intro x m
    rw [Array.toList_append, left, right] at m
    rcases List.mem_append.mp m with inL | inR
    · exact goodL x ((List.mergeSort_perm oL _).mem_iff.mp inL)
    · exact goodR x ((List.mergeSort_perm oR _).mem_iff.mp inR)
  rw [merge_eq swo goodLR (by rw [halves.1, left]; exact sortsL.sorted) (by rw [halves.2, right]; exact sortsR.sorted),
    halves.1, halves.2, left, right]
  exact IsStableSort.eq_mergeSort swo (by simpa [or_imp, forall_and] using And.intro goodL goodR)
    (IsStableSort.merge swo goodL goodR sortsL sortsR)

/-- Merging two neighbouring runs lays one run over both: a sorted one when either was sorted, the
other sorted first by quicksort, and the two side by side, unsorted, otherwise. -/
theorem mergeRuns_spec {p : Profile} {fuel : Nat} {left right : Run} {oL sL oR sR : List α}
    (coversL : Covers lt left oL sL) (coversR : Covers lt right oR sR)
    (goodL : ∀ x ∈ oL, good x) (goodR : ∀ x ∈ oR, good x)
    (sorts : ∀ w : Array α, (w.toList = oL ∧ left.sorted = false) ∨ (w.toList = oR ∧ right.sorted = false) →
      runMerge.quicksortAll lt p fuel w = some (w.toList.mergeSort (le lt)).toArray) :
    ∃ piece run, runMerge.mergeRuns lt p fuel (sL ++ sR).toArray left right = some (piece, run) ∧
      Covers lt run (oL ++ oR) piece.toList ∧ (left.sorted = true ∨ right.sorted = true → run.sorted = true) := by
  have lengthL : sL.length = left.length := by rw [coversL.length_shown, coversL.length_eq]
  have size : (sL ++ sR).toArray.size = (oL ++ oR).length := by
    simp [coversL.length_shown, coversR.length_shown]
  have partL : ((sL ++ sR).toArray.extract 0 left.length).toList = sL := by
    rw [toList_extract_eq, List.drop_zero, Nat.sub_zero, ← lengthL, List.toList_toArray, List.take_left]
  have partR : ((sL ++ sR).toArray.extract left.length).toList = sR := by
    rw [toList_extract_from, ← lengthL, List.toList_toArray, List.drop_left]
  have merged : ∀ l r : Array α, l.toList = oL.mergeSort (le lt) → r.toList = oR.mergeSort (le lt) →
      Covers lt ⟨(sL ++ sR).toArray.size, true⟩ (oL ++ oR) (merge lt (l ++ r) left.length).toList :=
    fun l r sortedL sortedR =>
      ⟨size, by rw [coversL.length_eq, merge_sorted_halves swo goodL goodR sortedL sortedR, if_pos rfl]⟩
  have shownL : left.sorted = true → sL = oL.mergeSort (le lt) := fun flag => by
    simpa [flag] using coversL.shown_eq
  have shownR : right.sorted = true → sR = oR.mergeSort (le lt) := fun flag => by
    simpa [flag] using coversR.shown_eq
  have quickL : left.sorted = false → runMerge.quicksortAll lt p fuel ((sL ++ sR).toArray.extract 0 left.length) =
      some (oL.mergeSort (le lt)).toArray := fun flag => by
    have shown : sL = oL := by simpa [flag] using coversL.shown_eq
    rw [sorts _ (.inl ⟨by rw [partL, shown], flag⟩), partL, shown]
  have quickR : right.sorted = false → runMerge.quicksortAll lt p fuel ((sL ++ sR).toArray.extract left.length) =
      some (oR.mergeSort (le lt)).toArray := fun flag => by
    have shown : sR = oR := by simpa [flag] using coversR.shown_eq
    rw [sorts _ (.inr ⟨by rw [partR, shown], flag⟩), partR, shown]
  rw [runMerge.mergeRuns]
  cases flagL : left.sorted <;> cases flagR : right.sorted
  · have unsorted : sL ++ sR = oL ++ oR := by
      rw [show sL = oL by simpa [flagL] using coversL.shown_eq, show sR = oR by simpa [flagR] using coversR.shown_eq]
    refine ⟨_, _, rfl, ?_, by simp⟩
    rw [List.toList_toArray, unsorted]
    exact covers_unsorted (by simp)
  · refine ⟨merge lt ((oL.mergeSort (le lt)).toArray ++ (sL ++ sR).toArray.extract left.length) left.length,
      ⟨(sL ++ sR).toArray.size, true⟩, ?_, merged _ _ (by simp) ?_, by simp⟩
    · simp only [quickL flagL, Bool.or_true, Bool.false_eq_true, if_true, if_false]
      rfl
    rw [partR, shownR flagR]
  · refine ⟨merge lt ((sL ++ sR).toArray.extract 0 left.length ++ (oR.mergeSort (le lt)).toArray) left.length,
      ⟨(sL ++ sR).toArray.size, true⟩, ?_, merged _ _ ?_ (by simp), by simp⟩
    · simp only [quickR flagR, Bool.true_or, Bool.false_eq_true, if_true, if_false]
      rfl
    rw [partL, shownL flagL]
  · refine ⟨merge lt ((sL ++ sR).toArray.extract 0 left.length ++ (sL ++ sR).toArray.extract left.length)
      left.length, ⟨(sL ++ sR).toArray.size, true⟩, ?_, merged _ _ ?_ ?_, by simp⟩
    · simp only [Bool.true_or, if_true]
      rfl
    · rw [partL, shownL flagL]
    · rw [partR, shownR flagR]

end MergeRuns

section MakeRun

variable {α : Type} [Inhabited α] {lt : α → α → Bool} {good : α → Prop} (swo : StrictWeak lt good)
include swo

theorem quicksort_small {p : Profile} {fuel limit : Nat} {ancestor : Option α} {v : Array α}
    (goodV : ∀ x ∈ v.toList, good x) (short : v.size ≤ smallLimit) :
    quicksort lt p (fuel + 1) v limit ancestor = some (v.toList.mergeSort (le lt)).toArray := by
  rw [quicksort, if_pos short]
  exact smallSort_eq_mergeSort swo p goodV

/-- Where no run long enough is found: an eager scan sorts a short stretch by the small sort, any
other leaves a stretch as it came. -/
theorem madeRun_spec {p : Profile} {fuel : Nat} {v : Array α} {scan : Nat} {eager : Bool} {minGood : Nat}
    {xs pre : List α} (goodX : ∀ x ∈ xs, good x) (laid : v.toList = pre ++ xs.drop scan) (placed : pre.length = scan)
    (inside : scan < xs.length) (fueled : 1 ≤ fuel) (positive : 1 ≤ minGood)
    (rest : (v.extract scan).toList = xs.drop scan) :
    ∃ v' next shown,
      (if eager = true then (do
          let piece ← quicksort lt p fuel ((v.extract scan).extract 0 (min smallLimit (v.extract scan).size)) 0 none
          pure (place v scan piece, ({ length := min smallLimit (v.extract scan).size, sorted := true } : Run)))
        else pure (v, ({ length := min minGood (v.extract scan).size, sorted := false } : Run))) = some (v', next) ∧
      1 ≤ next.length ∧ scan + next.length ≤ xs.length ∧
      Covers lt next ((xs.drop scan).take next.length) shown ∧
      v'.toList = pre ++ shown ++ xs.drop (scan + next.length) ∧ (eager = true → next.sorted = true) := by
  have size : (v.extract scan).size = xs.length - scan := by
    rw [← Array.length_toList, rest, List.length_drop]
  obtain ⟨fuel, rfl⟩ : ∃ f, fuel = f + 1 := ⟨fuel - 1, by omega⟩
  rw [size]
  cases eager
  · have length : ((xs.drop scan).take (min minGood (xs.length - scan))).length = min minGood (xs.length - scan) := by
      simp
    exact ⟨v, ⟨min minGood (xs.length - scan), false⟩, _, rfl, by simp; omega, by simp; omega,
      covers_unsorted length.symm, laid_split laid _, nofun⟩
  · have bounds : min smallLimit (xs.length - scan) ≤ smallLimit ∧ 1 ≤ min smallLimit (xs.length - scan) ∧
        scan + min smallLimit (xs.length - scan) ≤ xs.length := by
      simp only [smallLimit]
      omega
    generalize min smallLimit (xs.length - scan) = n at bounds ⊢
    have stretch : ((v.extract scan).extract 0 n).toList = (xs.drop scan).take n := by
      rw [toList_extract_eq, List.drop_zero, Nat.sub_zero, rest]
    have length : ((xs.drop scan).take n).length = n := by
      simp
      omega
    have sorted : quicksort lt p (fuel + 1) ((v.extract scan).extract 0 n) 0 none =
        some (((xs.drop scan).take n).mergeSort (le lt)).toArray := by
      rw [quicksort_small swo (fun x m => goodX x (List.mem_of_mem_drop (List.mem_of_mem_take (stretch ▸ m)))),
        stretch]
      rw [← Array.length_toList, stretch, length]
      exact bounds.1
    refine ⟨place v scan (((xs.drop scan).take n).mergeSort (le lt)).toArray, ⟨n, true⟩,
      ((xs.drop scan).take n).mergeSort (le lt), ?_, bounds.2.1, bounds.2.2, covers_sorted length.symm,
      toList_place_laid laid placed n (by simp [length]), fun _ => rfl⟩
    rw [if_pos rfl, sorted]
    rfl

/-- Finding a run at `scan` lays one more run, at least one value long, over the input after what
the scan has laid: a run found in the input (reversed if it descends), a short stretch sorted by the
small sort when eager, or else a stretch left as it came. -/
theorem makeRun_spec (p : Profile) (eager : Bool) {fuel : Nat} {v : Array α} {scan minGood : Nat}
    {xs pre : List α} (goodX : ∀ x ∈ xs, good x) (laid : v.toList = pre ++ xs.drop scan) (placed : pre.length = scan)
    (inside : scan < xs.length) (fueled : 1 ≤ fuel) (positive : 1 ≤ minGood) :
    ∃ v' next shown, runMerge.makeRun lt p fuel v scan eager minGood = some (v', next) ∧
      1 ≤ next.length ∧ scan + next.length ≤ xs.length ∧
      Covers lt next ((xs.drop scan).take next.length) shown ∧
      v'.toList = pre ++ shown ++ xs.drop (scan + next.length) ∧ (eager = true → next.sorted = true) := by
  have rest : (v.extract scan).toList = xs.drop scan := by
    rw [toList_extract_from, laid, ← placed, List.drop_left]
  rw [runMerge.makeRun]
  split
  · rename_i n descending existing
    split
    · rename_i long
      have found : existingRun lt (v.extract scan) = (n, descending) := by
        split at existing
        · exact Option.some.inj existing
        · cases existing
      have within : (existingRun lt (v.extract scan)).1 ≤ (v.extract scan).size := (existingRun_spec _).1
      have sorts := existingRun_sorts swo (v := v.extract scan)
        (fun x m => goodX x (List.mem_of_mem_drop (rest ▸ m)))
      simp only [found, rest] at within sorts
      have part : ((v.extract scan).extract 0 n).toList = (xs.drop scan).take n := by
        rw [toList_extract_eq, List.drop_zero, Nat.sub_zero, rest]
      have piece : (if descending = true then ((v.extract scan).extract 0 n).reverse
          else (v.extract scan).extract 0 n).toList = ((xs.drop scan).take n).mergeSort (le lt) := by
        rw [← sorts]
        cases descending
        · rw [if_neg Bool.false_ne_true, if_neg Bool.false_ne_true, part]
        · rw [if_pos rfl, if_pos rfl, Array.toList_reverse, part]
      have size : (v.extract scan).size = xs.length - scan := by
        rw [← Array.length_toList, rest, List.length_drop]
      have length : ((xs.drop scan).take n).length = n := by
        simp
        omega
      refine ⟨place v scan (if descending = true then ((v.extract scan).extract 0 n).reverse
        else (v.extract scan).extract 0 n), ⟨n, true⟩, ((xs.drop scan).take n).mergeSort (le lt), rfl,
        show 1 ≤ n by omega, show scan + n ≤ xs.length by omega, covers_sorted length.symm, ?_, fun _ => rfl⟩
      rw [toList_place_laid laid placed n (by rw [← Array.length_toList, piece, List.length_mergeSort]), piece]
    · exact madeRun_spec swo goodX laid placed inside fueled positive rest
  · exact madeRun_spec swo goodX laid placed inside fueled positive rest

end MakeRun

section Keeping

variable {α : Type} {lt : α → α → Bool} {xs tail : List α} {eager : Bool} {v : Array α} {scan : Nat}
  {prev : Run} {stack : List (Run × Nat)}

@[simp] theorem bottomRun_cons (prev : Run) (e : Run × Nat) (stack : List (Run × Nat)) :
    bottomRun prev (e :: stack) = bottomRun e.1 stack := by
  cases stack with
  | nil => rfl
  | cons below rest =>
    rw [bottomRun, bottomRun, List.getLast?_cons_cons, List.getLast?_eq_some_getLast (List.cons_ne_nil _ _)]
    rfl

theorem tiled_length {o s o' s' : List α} (tiles : Tiles lt stack o s) (covers : Covers lt prev o' s')
    (taken : o ++ o' = xs.take scan) (within : scan ≤ xs.length) : (s ++ s').length = scan := by
  rw [List.length_append, tiles.length_eq, covers.length_shown, ← List.length_append, taken, List.length_take]
  omega

theorem Laid.front (laid : Laid lt xs eager v scan prev stack tail) :
    (v.toList.take scan).length = scan ∧ v.toList = v.toList.take scan ++ tail := by
  obtain ⟨⟨o, s, o', s', tiles, covers, taken, shown⟩, within, -, -⟩ := laid
  have length := tiled_length tiles covers taken within
  rw [shown, List.take_left' length]
  exact ⟨length, rfl⟩

theorem Laid.retail (laid : Laid lt xs eager v scan prev stack tail) {v₁ : Array α} {tail₁ : List α}
    (front : v₁.toList = v.toList.take scan ++ tail₁) : Laid lt xs eager v₁ scan prev stack tail₁ := by
  obtain ⟨⟨o, s, o', s', tiles, covers, taken, shown⟩, within, eagerSorted, bottom⟩ := laid
  rw [shown, List.take_left' (tiled_length tiles covers taken within)] at front
  exact ⟨⟨o, s, o', s', tiles, covers, taken, front⟩, within, eagerSorted, bottom⟩

/-- The run found next is laid after the others once the last one is pushed. -/
theorem Laid.push {n : Nat} {next : Run} {shown : List α}
    (laid : Laid lt xs eager v scan prev stack (shown ++ xs.drop (scan + n)))
    (covers : Covers lt next ((xs.drop scan).take n) shown) (bound : scan + n ≤ xs.length)
    (sortedNext : eager = true → next.sorted = true) (depth : Nat) :
    Laid lt xs eager v (scan + n) next ((prev, depth) :: stack) (xs.drop (scan + n)) := by
  obtain ⟨⟨o, s, o', s', tiles, coversP, taken, shownEq⟩, within, eagerSorted, bottom⟩ := laid
  refine ⟨⟨o ++ o', s ++ s', (xs.drop scan).take n, shown, .cons depth tiles coversP, covers,
    by rw [taken, List.take_add], by rw [shownEq]; simp only [List.append_assoc]⟩, bound,
    fun e => ⟨sortedNext e, List.forall_mem_cons.mpr (eagerSorted e)⟩, by simpa using bottom⟩

theorem laid_start (v : Array α) : Laid lt v.toList eager v 0 ⟨0, true⟩ [] (v.toList.drop 0) :=
  ⟨⟨[], [], [], [], .nil, ⟨rfl, by simp⟩, rfl, rfl⟩, Nat.zero_le _, fun _ => ⟨rfl, nofun⟩, rfl⟩

/-- Runs laid over the whole input, with at most the empty bottom run waiting: the last run lies
over all of it. -/
theorem Laid.whole (laid : Laid lt xs eager v xs.length prev stack []) (single : stack.length ≤ 1) :
    Covers lt prev xs v.toList := by
  obtain ⟨⟨o, s, o', s', tiles, covers, taken, shown⟩, -, -, bottom⟩ := laid
  have empty : o = [] ∧ s = [] := by
    match stack, tiles, single with
    | [], .nil, _ => exact ⟨rfl, rfl⟩
    | [(r, d)], .cons _ .nil coversR, _ =>
      have length : r.length = 0 := by simpa [bottomRun] using bottom
      have none : _ := coversR.length_eq
      simp only [List.nil_append]
      rw [length, eq_comm, List.length_eq_zero_iff] at none
      exact ⟨none, List.length_eq_zero_iff.mp (by rw [coversR.length_shown, none]; rfl)⟩
  rw [empty.1, List.nil_append, List.take_length] at taken
  rw [empty.2, List.nil_append, List.append_nil] at shown
  rw [shown, ← taken]
  exact covers

end Keeping

/-- The square root estimate of two or more values is at least one. -/
theorem one_le_sqrtApprox {n : Nat} (two : 2 ≤ n) : 1 ≤ sqrtApprox n := by
  have big : 2 ≤ n ||| 1 := le_trans two Nat.left_le_or
  have log : 1 ≤ (n ||| 1).log2 := (Nat.le_log2 (by omega)).mpr big
  have power : 2 ≤ 2 ^ ((1 + (n ||| 1).log2) / 2) :=
    calc 2 = 2 ^ 1 := rfl
      _ ≤ 2 ^ ((1 + (n ||| 1).log2) / 2) := Nat.pow_le_pow_right (by decide) (by omega)
  unfold sqrtApprox
  dsimp only
  rw [Nat.one_shiftLeft]
  generalize n >>> ((1 + (n ||| 1).log2) / 2) = rest
  omega

section Scan

variable {α : Type} [Inhabited α] {lt : α → α → Bool} {good : α → Prop} (swo : StrictWeak lt good)

/-- Quicksort sorts every stretch of at most `bound` good values stably with `need` fuel or more. -/
def QuicksortSorts (lt : α → α → Bool) (good : α → Prop) (p : Profile) (need bound : Nat) : Prop :=
  ∀ fuel (w : Array α), need ≤ fuel → (∀ x ∈ w.toList, good x) → w.size ≤ bound →
    runMerge.quicksortAll lt p fuel w = some (w.toList.mergeSort (le lt)).toArray

include swo

variable {p : Profile} {eager : Bool} {xs tail : List α} {scan need : Nat}

/-- Merging the top waiting run into the last run found lays the merged run over the values of both. -/
theorem Laid.merge {fuel d : Nat} {v : Array α} {prev left : Run} {below : Run × Nat} {rest : List (Run × Nat)}
    (goodX : ∀ x ∈ xs, good x) (qs : eager = false → QuicksortSorts lt good p need xs.length) (fueled : need ≤ fuel)
    (laid : Laid lt xs eager v scan prev ((left, d) :: below :: rest) tail) :
    ∃ piece run, runMerge.mergeRuns lt p fuel (v.extract (scan - (left.length + prev.length)) scan) left prev =
      some (piece, run) ∧
      Laid lt xs eager (place v (scan - (left.length + prev.length)) piece) scan run (below :: rest) tail := by
  obtain ⟨⟨o, s, o', s', tiles, covers, taken, shown⟩, within, eagerSorted, bottom⟩ := laid
  cases tiles with
  | cons _ tiles₀ coversL =>
  rename_i o₀ s₀ oL sL
  have length : s₀.length + sL.length + s'.length = scan := by
    simpa [Nat.add_assoc] using tiled_length (.cons d tiles₀ coversL) covers taken within
  have lengthL : sL.length = left.length := by rw [coversL.length_shown, coversL.length_eq]
  have lengthP : s'.length = prev.length := by rw [covers.length_shown, covers.length_eq]
  have start : scan - (left.length + prev.length) = s₀.length := by omega
  have laidOut : v.toList = s₀ ++ (sL ++ s') ++ tail := by rw [shown, List.append_assoc s₀]
  have part : v.extract s₀.length scan = (sL ++ s').toArray := by
    have stop : scan = s₀.length + (sL ++ s').length := by
      rw [List.length_append]
      omega
    apply Array.ext'
    rw [List.toList_toArray, stop, toList_extract_over laidOut]
  have inXs : ∀ x ∈ o₀ ++ oL ++ o', good x := fun x m => goodX x (List.mem_of_mem_take (taken ▸ m))
  have sorts : ∀ w : Array α, (w.toList = oL ∧ left.sorted = false) ∨ (w.toList = o' ∧ prev.sorted = false) →
      runMerge.quicksortAll lt p fuel w = some (w.toList.mergeSort (le lt)).toArray := by
    intro w which
    cases eager
    · have within' : (o₀ ++ oL ++ o').length ≤ xs.length := by rw [taken, List.length_take]; omega
      simp only [List.length_append] at within'
      rcases which with ⟨listed, -⟩ | ⟨listed, -⟩
      · exact qs rfl fuel w fueled (fun x m => inXs x (by simp [← listed, m]))
          (by rw [← Array.length_toList, listed]; omega)
      · exact qs rfl fuel w fueled (fun x m => inXs x (by simp [← listed, m]))
          (by rw [← Array.length_toList, listed]; omega)
    · obtain ⟨sortedP, sortedStack⟩ := eagerSorted rfl
      have sortedL : left.sorted = true := sortedStack (left, d) List.mem_cons_self
      rcases which with ⟨-, flag⟩ | ⟨-, flag⟩
      · rw [sortedL] at flag
        cases flag
      · rw [sortedP] at flag
        cases flag
  obtain ⟨piece, run, merged, coversM, sortedM⟩ := mergeRuns_spec swo coversL covers
    (fun x m => inXs x (by simp [m])) (fun x m => inXs x (by simp [m])) sorts
  rw [start, part]
  refine ⟨piece, run, merged, ⟨⟨o₀, s₀, oL ++ o', piece.toList, tiles₀, coversM, by rw [← taken, List.append_assoc],
    toList_place_over laidOut ?_⟩, within, fun e => ⟨sortedM (.inr (eagerSorted e).1), ?_⟩, by simpa using bottom⟩⟩
  · rw [← Array.length_toList, coversM.length_shown, List.length_append, List.length_append, coversL.length_shown,
      covers.length_shown]
  · exact fun x m => (eagerSorted e).2 x (List.mem_cons_of_mem _ m)

/-- Collapsing merges waiting runs while the merge tree wants them merged; the runs stay laid over
the same values, the stack does not grow, and at depth `0` everything but the bottom run is merged. -/
theorem collapse_spec (depth : Nat) (goodX : ∀ x ∈ xs, good x)
    (qs : eager = false → QuicksortSorts lt good p need xs.length) :
    ∀ (stack : List (Run × Nat)) (fuel : Nat) (v : Array α) (prev : Run), Laid lt xs eager v scan prev stack tail →
      need + stack.length ≤ fuel + 1 →
      ∃ v' prev' stack', runMerge.collapse lt p fuel v scan depth prev stack = some (v', prev', stack') ∧
        Laid lt xs eager v' scan prev' stack' tail ∧ stack'.length ≤ stack.length ∧
        (depth = 0 → stack'.length ≤ 1) := by
  intro stack
  induction stack with
  | nil =>
    intro fuel v prev laid _
    exact ⟨v, prev, [], runMerge.collapse.eq_3 _ _ _ _ _ _ _ _ (by simp), laid, le_refl _, by simp⟩
  | cons top below ih =>
    intro fuel v prev laid fueled
    obtain ⟨left, d⟩ := top
    cases below with
    | nil =>
      exact ⟨v, prev, [(left, d)], runMerge.collapse.eq_3 _ _ _ _ _ _ _ _ (by simp), laid, le_refl _, by simp⟩
    | cons below rest =>
      cases fuel with
      | zero => simp at fueled; omega
      | succ fuel =>
        rw [runMerge.collapse.eq_2]
        split
        · rename_i wanted
          obtain ⟨piece, run, merged, laid'⟩ :=
            Laid.merge swo goodX qs (show need ≤ fuel by simp at fueled; omega) laid
          simp only [merged, Option.bind_eq_bind, Option.bind_some]
          obtain ⟨v', prev', stack', collapsed, laid'', shorter, single⟩ :=
            ih fuel _ run laid' (by simp at fueled ⊢; omega)
          exact ⟨v', prev', stack', collapsed, laid'', by simp at shorter ⊢; omega, single⟩
        · rename_i shallow
          exact ⟨v, prev, _, rfl, laid, le_refl _, fun zero => absurd (zero ▸ Nat.zero_le d) shallow⟩

/-- The scan over runs, from any point where the runs are laid over the values scanned so far and
with fuel left for every step, ends with the stable sort of the input. -/
theorem go_spec {scale : UInt64} {minGood : Nat} (goodX : ∀ x ∈ xs, good x) (positive : 1 ≤ minGood)
    (qs : eager = false → QuicksortSorts lt good p need xs.length) :
    ∀ fuel (v : Array α) scan prev (stack : List (Run × Nat)), Laid lt xs eager v scan prev stack (xs.drop scan) →
      2 * (xs.length - scan) + stack.length + 3 + need ≤ fuel →
      runMerge.go lt p fuel v eager scale minGood xs.length scan prev stack = some (xs.mergeSort (le lt)).toArray := by
  intro fuel
  induction fuel with
  | zero =>
    intro _ _ _ _ _ fueled
    omega
  | succ fuel ih =>
    intro v scan prev stack laid fueled
    obtain ⟨placed, front⟩ := laid.front
    rw [runMerge.go.eq_2]
    split
    · rename_i inside
      obtain ⟨v₁, next, shown, made, one, bound, covers, laid₁, sortedNext⟩ :=
        makeRun_spec swo p eager goodX front placed inside (show 1 ≤ fuel by omega) positive
      obtain ⟨v₂, prev₂, stack₂, collapsed, laid₂, shorter, -⟩ :=
        collapse_spec swo (mergeDepth (scan - prev.length) scan (scan + next.length) scale) goodX qs stack fuel v₁
          prev (laid.retail (by rw [laid₁, List.append_assoc])) (by omega)
      simp only [made, collapsed, Option.bind_eq_bind, Option.bind_some, Option.pure_def]
      rw [if_neg (by omega)]
      exact ih v₂ (scan + next.length) next _ (laid₂.push covers bound sortedNext _) (by simp; omega)
    · rename_i outside
      have whole : scan = xs.length := by
        have := laid.within
        omega
      obtain ⟨v₂, prev₂, stack₂, collapsed, laid₂, -, single⟩ := collapse_spec swo 0 goodX qs stack fuel v prev laid
        (by omega)
      simp only [collapsed, Option.bind_eq_bind, Option.bind_some, Option.pure_def]
      rw [if_pos (by omega)]
      subst whole
      rw [List.drop_length] at laid₂
      have covers := laid₂.whole (single rfl)
      cases flag : prev₂.sorted
      · have listed : v₂.toList = xs := by simpa [flag] using covers.shown_eq
        cases eager
        · rw [if_neg Bool.false_ne_true, qs rfl fuel v₂ (by omega) (listed ▸ goodX)
            (by rw [← Array.length_toList, listed]), listed]
        · rw [(laid₂.eagerSorted rfl).1] at flag
          cases flag
      · have listed : v₂.toList = xs.mergeSort (le lt) := by simpa [flag] using covers.shown_eq
        rw [if_pos rfl, ← listed, Array.toArray_toList]

/-- The merge of runs sorts stably, given fuel for its scan, and quicksort where it leaves runs to be
sorted when they are merged. -/
theorem runMerge_spec {fuel : Nat} {v : Array α} (goodV : ∀ x ∈ v.toList, good x)
    (qs : eager = false → QuicksortSorts lt good p need v.size) (fueled : 2 * v.size + 3 + need ≤ fuel) :
    runMerge lt p fuel v eager = some (v.toList.mergeSort (le lt)).toArray := by
  rw [runMerge.eq_1]
  split
  · rename_i short
    have sorted : v.toList.Pairwise fun a b => le lt a b = true := by
      match listed : v.toList with
      | [] => exact .nil
      | [a] => exact List.pairwise_singleton _ a
      | _ :: _ :: _ => simp [← Array.length_toList, listed] at short
    rw [List.mergeSort_of_pairwise sorted, Array.toArray_toList]
  · rename_i long
    have positive : 1 ≤ (if v.size ≤ 64 * 64 then min (v.size - v.size / 2) 64 else sqrtApprox v.size) := by
      split
      · omega
      · exact one_le_sqrtApprox (by omega)
    exact go_spec swo goodV positive qs _ _ _ _ _ (laid_start v) (by simp; omega)

end Scan

end Sorting

end GameVault
