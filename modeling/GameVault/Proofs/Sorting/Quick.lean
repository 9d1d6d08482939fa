import Mathlib
import GameVault.Proofs.Sorting.Runs

namespace GameVault

namespace Sorting

section Pivot

variable {α : Type} [Inhabited α] (lt : α → α → Bool)

theorem median3_mem (v : Array α) (a b c : Nat) :
    median3 lt v a b c = a ∨ median3 lt v a b c = b ∨ median3 lt v a b c = c := by
  unfold median3
  dsimp only
  split_ifs <;> simp

/-- The recursive median of three lies below the last sample's start by less than the length of the
stretches it samples. -/
theorem median3Rec_lt (v : Array α) (a b c n : Nat) (positive : 1 ≤ n) :
    median3Rec lt v a b c n + 1 ≤ max a (max b c) + n := by
  fun_induction median3Rec lt v a b c n with
  | case1 a b c n deep n8 smaller ihA ihB ihC =>
    have eighth : n8 = n / 8 := rfl
    have boundA := ihA (by omega)
    have boundB := ihB (by omega)
    have boundC := ihC (by omega)
    rcases median3_mem lt v (median3Rec lt v a (a + n8 * 4) (a + n8 * 7) n8)
      (median3Rec lt v b (b + n8 * 4) (b + n8 * 7) n8) (median3Rec lt v c (c + n8 * 4) (c + n8 * 7) n8)
      with same | same | same <;> rw [same] <;> omega
  | case2 a b c n shallow =>
    rcases median3_mem lt v a b c with same | same | same <;> rw [same] <;> omega

/-- The pivot of a stretch longer than a small sort takes is one of its values. -/
theorem choosePivot_lt {v : Array α} (big : smallLimit < v.size) : choosePivot lt v < v.size := by
  unfold choosePivot smallLimit at *
  dsimp only
  split
  · rcases median3_mem lt v 0 (v.size / 8 * 4) (v.size / 8 * 7) with same | same | same <;> rw [same] <;> omega
  · have bound := median3Rec_lt lt v 0 (v.size / 8 * 4) (v.size / 8 * 7) (v.size / 8) (by omega)
    omega

end Pivot

section Partition

variable {α : Type} [Inhabited α]

/-- Where the pivot goes the way the test sends it, the two sides of the partition are the values
the test sends left and the others, each in the order they came. -/
theorem partition_eq (goesLeft : α → α → Bool) {v : Array α} {pos : Nat} {pivotLeft : Bool}
    (agrees : goesLeft (v.getD pos default) (v.getD pos default) = pivotLeft) :
    partition goesLeft v pos pivotLeft =
      ((v.toList.filter fun x => goesLeft x (v.getD pos default)).toArray,
        (v.toList.filter fun x => !goesLeft x (v.getD pos default)).toArray) := by
  have tags : (v.toList.zipIdx.map fun p =>
      (p.1, if p.2 = pos then pivotLeft else goesLeft p.1 (v.getD pos default))) =
      v.toList.map fun x => (x, goesLeft x (v.getD pos default)) := by
    conv => rhs; rw [← List.zipIdx_map_fst 0 v.toList, List.map_map]
    apply List.map_congr_left
    rintro ⟨x, i⟩ member
    by_cases here : i = pos
    · have pivot : v.getD pos default = x := by
        rw [Array.getD_eq_getD_getElem?, ← here, ← Array.getElem?_toList,
          List.mem_zipIdx_iff_getElem?.mp member]
        rfl
      rw [pivot] at agrees
      simp [here, pivot, agrees]
    · simp [here]
  unfold partition
  dsimp only
  rw [tags]
  simp [List.filter_map, Function.comp_def]

end Partition

section Sides

variable {α : Type} {lt : α → α → Bool} {good : α → Prop} (swo : StrictWeak lt good)
include swo

/-- Splitting by a test that gives tied values one answer and sends lesser values first, then
sorting each side, sorts the whole. -/
theorem mergeSort_filter_append {xs : List α} (goodX : ∀ x ∈ xs, good x) (q : α → Bool)
    (respects : ∀ {a b}, good a → good b → ties lt a b = true → q a = q b)
    (ordered : ∀ a ∈ xs, ∀ b ∈ xs, q a = true → q b = false → le lt a b = true) :
    xs.mergeSort (le lt) = (xs.filter q).mergeSort (le lt) ++ (xs.filter fun x => !q x).mergeSort (le lt) := by
  have goodL : ∀ x ∈ xs.filter q, good x := fun x m => goodX x (List.mem_of_mem_filter m)
  have goodR : ∀ x ∈ xs.filter (fun x => !q x), good x := fun x m => goodX x (List.mem_of_mem_filter m)
  have sides : ∀ a ∈ xs.filter q, ∀ b ∈ xs.filter (fun x => !q x), le lt a b = true := by
    intro a ma b mb
    obtain ⟨ma, qa⟩ := List.mem_filter.mp ma
    obtain ⟨mb, qb⟩ := List.mem_filter.mp mb
    exact ordered a ma b mb qa (by simpa using qb)
  have sorts := (IsStableSort.append (isStableSort_mergeSort swo goodL) (isStableSort_mergeSort swo goodR)
    sides).of_sameClasses (sameClasses_filter goodX q respects)
  exact (IsStableSort.eq_mergeSort swo goodX sorts).symm

theorem mergeSort_of_ties {xs : List α} (goodX : ∀ x ∈ xs, good x) (tied : ∀ a ∈ xs, ∀ b ∈ xs, ties lt a b = true) :
    xs.mergeSort (le lt) = xs :=
  (IsStableSort.eq_mergeSort swo goodX (isStableSort_of_ties tied)).symm

end Sides

section Quicksort

variable {α : Type} [Inhabited α]

/-- Every value of a stretch is at least the pivot it descends from, where there is one. -/
def AboveAncestor (lt : α → α → Bool) (good : α → Prop) (ancestor : Option α) (xs : List α) : Prop :=
  ∀ a ∈ ancestor, good a ∧ ∀ x ∈ xs, le lt a x = true

variable {lt : α → α → Bool} {good : α → Prop} {p : Profile} {fuel limit pos : Nat} {v : Array α}

theorem getD_mem_toList (inside : pos < v.size) : v.getD pos default ∈ v.toList := by
  rw [getD_eq_getElem_toList (by simpa using inside)]
  exact List.getElem_mem _

variable (swo : StrictWeak lt good)
include swo

/-- Where every value not above the pivot ties with it, quicksort keeps those values where they are
and sorts on only the values above the pivot. -/
theorem quicksort_low (goodV : ∀ x ∈ v.toList, good x) (inside : pos < v.size)
    (tied : ∀ x ∈ v.toList, lt (v.getD pos default) x = false → ties lt x (v.getD pos default) = true)
    (sorts : ∀ w : Array α, (∀ x ∈ w.toList, good x) → w.size < v.size →
      quicksort lt p fuel w limit none = some (w.toList.mergeSort (le lt)).toArray) :
    (do
      let high ← quicksort lt p fuel (partition (fun x y => !lt y x) v pos true).2 limit none
      pure ((partition (fun x y => !lt y x) v pos true).1 ++ high)) =
      some (v.toList.mergeSort (le lt)).toArray := by
  have pivotIn := getD_mem_toList inside
  have goodPivot := goodV _ pivotIn
  rw [partition_eq (fun x y => !lt y x) (by simp only [swo.irrefl goodPivot, Bool.not_false])]
  simp only [Bool.not_not]
  generalize v.getD pos default = pivot at pivotIn goodPivot tied
  have shorter : (v.toList.filter fun x => lt pivot x).length < v.toList.length :=
    List.length_filter_lt_length_iff_exists.mpr ⟨pivot, pivotIn, by simp [swo.irrefl goodPivot]⟩
  rw [sorts _ (fun x m => goodV x (List.mem_of_mem_filter (by simpa using m))) (by simpa using shorter)]
  have sides := mergeSort_filter_append swo goodV (fun x => !lt pivot x)
    (fun ga gb tied => by rw [swo.lt_congr_right ga gb goodPivot tied])
    (fun a ma b mb low high => swo.le_of_lt (goodV a ma) (goodV b mb)
      (swo.lt_of_le_of_lt (goodV a ma) goodPivot (goodV b mb) (by simpa [le] using low) (by simpa using high)))
  have kept : (v.toList.filter fun x => !lt pivot x).mergeSort (le lt) = v.toList.filter fun x => !lt pivot x :=
      mergeSort_of_ties swo (fun x m => goodV x (List.mem_of_mem_filter m)) fun a ma b mb => by
    obtain ⟨ma, notAboveA⟩ := List.mem_filter.mp ma
    obtain ⟨mb, notAboveB⟩ := List.mem_filter.mp mb
    exact swo.ties_trans (goodV a ma) goodPivot (goodV b mb) (tied a ma (by simpa using notAboveA))
      (by rw [ties_comm]; exact tied b mb (by simpa using notAboveB))
  simp only [Bool.not_not] at sides
  rw [sides, kept]
  simp

/-- Where some value is below the pivot, quicksort sorts the values below it and the rest apart: both
are shorter than the stretch, and every value of the rest is at least the pivot. -/
theorem quicksort_main {ancestor : Option α} (goodV : ∀ x ∈ v.toList, good x) (inside : pos < v.size)
    (below : ∃ x ∈ v.toList, lt x (v.getD pos default) = true) (above : AboveAncestor lt good ancestor v.toList)
    (sorts : ∀ (w : Array α) anc, (∀ x ∈ w.toList, good x) → AboveAncestor lt good anc w.toList → w.size < v.size →
      quicksort lt p fuel w limit anc = some (w.toList.mergeSort (le lt)).toArray) :
    (do
      let right ← quicksort lt p fuel (partition lt v pos false).2 limit (some (v.getD pos default))
      let left ← quicksort lt p fuel (partition lt v pos false).1 limit ancestor
      pure (left ++ right)) = some (v.toList.mergeSort (le lt)).toArray := by
  have pivotIn := getD_mem_toList inside
  have goodPivot := goodV _ pivotIn
  rw [partition_eq lt (swo.irrefl goodPivot)]
  generalize v.getD pos default = pivot at pivotIn goodPivot below ⊢
  obtain ⟨least, leastIn, leastBelow⟩ := below
  have shorterL : (v.toList.filter fun x => lt x pivot).length < v.toList.length :=
    List.length_filter_lt_length_iff_exists.mpr ⟨pivot, pivotIn, by simp [swo.irrefl goodPivot]⟩
  have shorterR : (v.toList.filter fun x => !lt x pivot).length < v.toList.length :=
    List.length_filter_lt_length_iff_exists.mpr ⟨least, leastIn, by simp [leastBelow]⟩
  have aboveL : AboveAncestor lt good ancestor (v.toList.filter fun x => lt x pivot) := fun a member =>
    ⟨(above a member).1, fun x m => (above a member).2 x (List.mem_of_mem_filter m)⟩
  have aboveR : AboveAncestor lt good (some pivot) (v.toList.filter fun x => !lt x pivot) := by
    rintro a ⟨⟩
    exact ⟨goodPivot, fun x m => by simpa [le] using (List.mem_filter.mp m).2⟩
  have goodSide : ∀ q : α → Bool, ∀ x ∈ (v.toList.filter q).toArray.toList, good x :=
    fun q x m => goodV x (List.mem_of_mem_filter (by simpa using m))
  rw [sorts _ _ (goodSide _) (by simpa using aboveR) (by simpa using shorterR),
    sorts _ _ (goodSide _) (by simpa using aboveL) (by simpa using shorterL)]
  have sides := mergeSort_filter_append swo goodV (fun x => lt x pivot)
    (fun ga gb tied => swo.lt_congr_left ga gb goodPivot tied)
    (fun a ma b mb low high => swo.le_of_lt (goodV a ma) (goodV b mb)
      (swo.lt_of_lt_of_le (goodV a ma) goodPivot (goodV b mb) low (by simpa [le] using high)))
  rw [sides]
  simp

/-- Below the first steps, quicksort keeps the values not above the pivot in place when they all tie
with it, and otherwise sorts both sides. -/
theorem quicksort_split {ancestor : Option α} (goodV : ∀ x ∈ v.toList, good x) (inside : pos < v.size)
    (above : AboveAncestor lt good ancestor v.toList)
    (sorts : ∀ (w : Array α) anc, (∀ x ∈ w.toList, good x) → AboveAncestor lt good anc w.toList → w.size < v.size →
      quicksort lt p fuel w limit anc = some (w.toList.mergeSort (le lt)).toArray) :
    (if (partition lt v pos false).1.isEmpty = true then do
        let high ← quicksort lt p fuel (partition (fun x y => !lt y x) v pos true).2 limit none
        pure ((partition (fun x y => !lt y x) v pos true).1 ++ high)
      else do
        let right ← quicksort lt p fuel (partition lt v pos false).2 limit (some (v.getD pos default))
        let left ← quicksort lt p fuel (partition lt v pos false).1 limit ancestor
        pure (left ++ right)) = some (v.toList.mergeSort (le lt)).toArray := by
  have goodPivot := goodV _ (getD_mem_toList inside)
  have below : (partition lt v pos false).1 = (v.toList.filter fun x => lt x (v.getD pos default)).toArray := by
    rw [partition_eq lt (swo.irrefl goodPivot)]
  by_cases empty : (partition lt v pos false).1.isEmpty = true
  · rw [if_pos empty]
    simp only [below, List.isEmpty_toArray, List.isEmpty_iff, List.filter_eq_nil_iff, Bool.not_eq_true] at empty
    exact quicksort_low swo goodV inside
      (fun x m notAbove => by simp only [ties, empty x m, notAbove, Bool.not_false, Bool.and_self])
      fun w goodW shorter => sorts w none goodW (by simp [AboveAncestor]) shorter
  · rw [if_neg empty]
    simp only [below, List.isEmpty_toArray, List.isEmpty_iff, List.filter_eq_nil_iff, not_forall, not_not] at empty
    obtain ⟨x, m, lower⟩ := empty
    exact quicksort_main swo goodV inside ⟨x, m, lower⟩ above sorts

/-- Quicksort with fuel of twice the length and five more sorts a stretch of good values stably,
whatever its limit of unbalanced splits, when every value is at least the pivot it descends from. -/
theorem quicksort_eq_mergeSort (p : Profile) :
    ∀ fuel (v : Array α) limit ancestor, (∀ x ∈ v.toList, good x) → AboveAncestor lt good ancestor v.toList →
      2 * v.size + 5 ≤ fuel → quicksort lt p fuel v limit ancestor = some (v.toList.mergeSort (le lt)).toArray := by
  intro fuel
  induction fuel with
  | zero =>
    intro _ _ _ _ _ fueled
    omega
  | succ fuel ih =>
    intro v limit ancestor goodV above fueled
    rw [quicksort.eq_2]
    split
    · exact smallSort_eq_mergeSort swo p goodV
    rename_i big
    split
    · exact runMerge_spec swo goodV (fun lazy => by cases lazy) (show 2 * v.size + 3 + 0 ≤ fuel by omega)
    have inside := choosePivot_lt lt (Nat.lt_of_not_le big)
    have sorts : ∀ (w : Array α) anc, (∀ x ∈ w.toList, good x) → AboveAncestor lt good anc w.toList →
        w.size < v.size → quicksort lt p fuel w (limit - 1) anc = some (w.toList.mergeSort (le lt)).toArray :=
      fun w anc goodW aboveW shorter => ih w (limit - 1) anc goodW aboveW (by omega)
    dsimp only
    split
    · rename_i a
      by_cases pivotAbove : lt a (v.getD (choosePivot lt v) default) = true
      · simp only [pivotAbove, Bool.not_true, Bool.false_or, Bool.false_eq_true, if_false]
        exact quicksort_split swo goodV inside above sorts
      · have notAbove : lt a (v.getD (choosePivot lt v) default) = false := by simpa using pivotAbove
        simp only [notAbove, Bool.not_false, Bool.true_or, if_true]
        obtain ⟨goodA, atLeast⟩ := above a rfl
        have goodPivot := goodV _ (getD_mem_toList inside)
        refine quicksort_low swo goodV inside (fun x m notAbovePivot => ?_)
          fun w goodW shorter => sorts w none goodW (by simp [AboveAncestor]) shorter
        have notBelow : lt x (v.getD (choosePivot lt v) default) = false := by
          by_contra lower
          have belowA := swo.lt_of_lt_of_le (goodV x m) goodPivot goodA (by simpa using lower)
            (by simp only [le, notAbove, Bool.not_false])
          simpa [le, belowA] using atLeast x m
        simp only [ties, notBelow, notAbovePivot, Bool.not_false, Bool.and_self]
    · simp only [Bool.false_or, Bool.false_eq_true, if_false]
      exact quicksort_split swo goodV inside above sorts

/-- Quicksort as the merge of runs calls it sorts every stretch of good values, given fuel of twice
the stretch's length and five more. -/
theorem quicksortSorts (p : Profile) (bound : Nat) : QuicksortSorts lt good p (2 * bound + 5) bound := by
  intro fuel w fueled goodW short
  rw [runMerge.quicksortAll]
  exact quicksort_eq_mergeSort swo p fuel w _ none goodW (by simp [AboveAncestor]) (by omega)

end Quicksort

section Whole

variable {α : Type} [Inhabited α] {lt : α → α → Bool} {good : α → Prop} (swo : StrictWeak lt good)
include swo

/-- The hybrid sort of good values is their stable sort, the library's merge sort: it never gives
up on a strict weak order. -/
theorem sort_eq_mergeSort (p : Profile) {xs : List α} (goodX : ∀ x ∈ xs, good x) :
    sort lt p xs = some (xs.mergeSort (le lt)) := by
  unfold sort
  split
  · rw [insertionSort_eq_mergeSort swo goodX]
  · dsimp only
    rw [runMerge_spec swo (v := xs.toArray) (by simpa using goodX) (fun _ => quicksortSorts swo p xs.length)
      (show 2 * xs.toArray.size + 3 + (2 * xs.length + 5) ≤ 8 * xs.length + 256 by simp; omega)]
    simp

end Whole

end Sorting

end GameVault
