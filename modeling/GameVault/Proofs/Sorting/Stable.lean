import Mathlib

namespace GameVault

namespace Sorting

section Order

variable {α : Type} (lt : α → α → Bool)

/-- `a` may stand before `b`: `b` is not less than `a`. -/
def le (a b : α) : Bool := !lt b a

/-- Neither of `a` and `b` is less than the other. -/
def ties (a b : α) : Bool := !lt a b && !lt b a

/-- `lt` is a strict weak order on the values `good` holds of: none is less than itself, and both
"less than" and "not less than" are transitive. -/
structure StrictWeak (good : α → Prop) : Prop where
  irrefl : ∀ {a}, good a → lt a a = false
  trans : ∀ {a b c}, good a → good b → good c → lt a b = true → lt b c = true → lt a c = true
  not_trans : ∀ {a b c}, good a → good b → good c → lt b a = false → lt c b = false → lt c a = false

variable {lt}

theorem ties_comm (a b : α) : ties lt a b = ties lt b a := Bool.and_comm ..

theorem le_of_ties {a b : α} (tied : ties lt a b = true) : le lt a b = true := by
  simp_all [ties, le]

theorem merge_cons_left {x : α} {l r : List α} (first : ∀ z ∈ r, le lt x z = true) :
    (x :: l).merge r (le lt) = x :: l.merge r (le lt) := by
  cases r with
  | nil => simp
  | cons y r => exact List.cons_merge_cons_pos _ _ _ (first y List.mem_cons_self)

theorem merge_cons_right {y : α} {l r : List α} (first : ∀ z ∈ l, lt y z = true) :
    l.merge (y :: r) (le lt) = y :: l.merge r (le lt) := by
  cases l with
  | nil => simp
  | cons x l => exact List.cons_merge_cons_neg _ _ _ (by simp [le, first x List.mem_cons_self])

/-- A value not less than everything of the left list ends the merge after the right list. -/
theorem merge_append_right {y : α} : ∀ {l r : List α}, (∀ x ∈ l, le lt x y = true) →
    l.merge (r ++ [y]) (le lt) = l.merge r (le lt) ++ [y]
  | [], r, _ => by simp
  | l, [], last => by
    rw [List.nil_append, List.merge_right, List.merge_of_le]
    intro a b ma mb
    rw [List.mem_singleton.mp mb]
    exact last a ma
  | x :: l, z :: r, last => by
    rw [List.cons_append, List.cons_merge_cons, List.cons_merge_cons]
    split
    · rw [← List.cons_append, merge_append_right fun a m => last a (.tail _ m), List.cons_append]
    · rw [merge_append_right last, List.cons_append]

/-- A value greater than everything of the right list ends the merge after the left list. -/
theorem merge_append_left {x : α} : ∀ {l r : List α}, (∀ z ∈ r, lt z x = true) →
    (l ++ [x]).merge r (le lt) = l.merge r (le lt) ++ [x]
  | l, [], _ => by simp
  | [], z :: r, first => by
    have rest := merge_append_left (l := []) fun a m => first a (.tail _ m)
    rw [List.nil_append, List.nil_merge] at rest
    rw [List.nil_append, List.cons_merge_cons_neg _ _ _ (by simp [le, first z List.mem_cons_self]), rest]
    simp
  | w :: l, z :: r, first => by
    rw [List.cons_append, List.cons_merge_cons, List.cons_merge_cons]
    split
    · rw [merge_append_left first, List.cons_append]
    · rw [← List.cons_append, merge_append_left fun a m => first a (.tail _ m), List.cons_append]

/-- Merging one value into a list puts it after the values not greater than it and before the
values greater than it. -/
theorem merge_singleton {x : α} {suf : List α} (after : ∀ b ∈ suf, lt x b = true) :
    ∀ {pre : List α}, (∀ a ∈ pre, le lt a x = true) → (pre ++ suf).merge [x] (le lt) = pre ++ x :: suf
  | [], _ => by
    cases suf with
    | nil => simp
    | cons b suf => simp [List.cons_merge_cons_neg _ _ _ (by simp [le, after b List.mem_cons_self] : ¬ le lt b x = true)]
  | a :: pre, before => by
    rw [List.cons_append, merge_cons_left (by simpa using before a List.mem_cons_self),
      merge_singleton after fun b m => before b (.tail _ m), List.cons_append]

end Order

namespace StrictWeak

variable {α : Type} {lt : α → α → Bool} {good : α → Prop} (swo : StrictWeak lt good)
include swo

theorem le_refl {a : α} (ga : good a) : le lt a a = true := by
  simp [le, swo.irrefl ga]

theorem le_trans {a b c : α} (ga : good a) (gb : good b) (gc : good c) (ab : le lt a b = true)
    (bc : le lt b c = true) : le lt a c = true := by
  simp only [le, Bool.not_eq_eq_eq_not, Bool.not_true] at *
  exact swo.not_trans ga gb gc ab bc

theorem lt_asymm {a b : α} (ga : good a) (gb : good b) (ab : lt a b = true) : lt b a = false := by
  by_contra ba
  simpa [swo.irrefl ga] using swo.trans ga gb ga ab (by simpa using ba)

theorem le_total {a b : α} (ga : good a) (gb : good b) : (le lt a b || le lt b a) = true := by
  by_cases ba : lt b a = true
  · simp [le, swo.lt_asymm gb ga ba]
  · simp [le, ba]

theorem lt_of_lt_of_le {a b c : α} (ga : good a) (gb : good b) (gc : good c) (ab : lt a b = true)
    (bc : le lt b c = true) : lt a c = true := by
  by_contra ac
  have ca : le lt c a = true := by simpa [le] using ac
  have ba : le lt b a = true := swo.le_trans gb gc ga bc ca
  simp [le, ab] at ba

theorem lt_of_le_of_lt {a b c : α} (ga : good a) (gb : good b) (gc : good c) (ab : le lt a b = true)
    (bc : lt b c = true) : lt a c = true := by
  by_contra ac
  have ca : le lt c a = true := by simpa [le] using ac
  have cb : le lt c b = true := swo.le_trans gc ga gb ca ab
  simp [le, bc] at cb

theorem le_of_lt {a b : α} (ga : good a) (gb : good b) (ab : lt a b = true) : le lt a b = true := by
  simp [le, swo.lt_asymm ga gb ab]

theorem comap {β : Type} (f : β → α) : StrictWeak (fun i j => lt (f i) (f j)) fun i => good (f i) :=
  ⟨swo.irrefl, swo.trans, swo.not_trans⟩

theorem ties_self {a : α} (ga : good a) : ties lt a a = true := by
  simp [ties, swo.irrefl ga]

theorem ties_trans {a b c : α} (ga : good a) (gb : good b) (gc : good c) (ab : ties lt a b = true)
    (bc : ties lt b c = true) : ties lt a c = true := by
  simp only [ties, Bool.and_eq_true, Bool.not_eq_eq_eq_not, Bool.not_true] at *
  exact ⟨swo.not_trans gc gb ga bc.1 ab.1, swo.not_trans ga gb gc ab.2 bc.2⟩

theorem lt_congr_left {a b c : α} (ga : good a) (gb : good b) (gc : good c) (ab : ties lt a b = true) :
    lt a c = lt b c := by
  simp only [ties, Bool.and_eq_true, Bool.not_eq_eq_eq_not, Bool.not_true] at ab
  have ba : le lt b a = true := by simp [le, ab.1]
  have ab' : le lt a b = true := by simp [le, ab.2]
  cases ac : lt a c
  · cases bc : lt b c
    · rfl
    · simp [swo.lt_of_le_of_lt ga gb gc ab' bc] at ac
  · simp [swo.lt_of_le_of_lt gb ga gc ba ac]

theorem lt_congr_right {a b c : α} (ga : good a) (gb : good b) (gc : good c) (ab : ties lt a b = true) :
    lt c a = lt c b := by
  simp only [ties, Bool.and_eq_true, Bool.not_eq_eq_eq_not, Bool.not_true] at ab
  have ba : le lt b a = true := by simp [le, ab.1]
  have ab' : le lt a b = true := by simp [le, ab.2]
  cases ca : lt c a
  · cases cb : lt c b
    · rfl
    · simp [swo.lt_of_lt_of_le gc gb ga cb ba] at ca
  · simp [swo.lt_of_lt_of_le gc ga gb ca ab']

end StrictWeak

section Stable

variable {α : Type} (lt : α → α → Bool) (good : α → Prop)

/-- `ys` holds the values of `xs`, each class of ties in the order it has in `xs`. -/
structure SameClasses (xs ys : List α) : Prop where
  perm : xs.Perm ys
  classes : ∀ c, good c → xs.filter (ties lt c) = ys.filter (ties lt c)

/-- `ys` sorts `xs` stably: it is in order, and holds each class of ties of `xs` in the order the
class has in `xs`. -/
structure IsStableSort (xs ys : List α) : Prop where
  sorted : ys.Pairwise fun a b => le lt a b = true
  same : SameClasses lt good xs ys

variable {lt good}

theorem SameClasses.refl (xs : List α) : SameClasses lt good xs xs := ⟨.refl xs, fun _ _ => rfl⟩

theorem SameClasses.symm {xs ys : List α} (same : SameClasses lt good xs ys) : SameClasses lt good ys xs :=
  ⟨same.perm.symm, fun c gc => (same.classes c gc).symm⟩

theorem SameClasses.trans {xs ys zs : List α} (first : SameClasses lt good xs ys)
    (second : SameClasses lt good ys zs) : SameClasses lt good xs zs :=
  ⟨first.perm.trans second.perm, fun c gc => (first.classes c gc).trans (second.classes c gc)⟩

theorem SameClasses.append {xs xs' ys ys' : List α} (left : SameClasses lt good xs xs')
    (right : SameClasses lt good ys ys') : SameClasses lt good (xs ++ ys) (xs' ++ ys') :=
  ⟨left.perm.append right.perm, fun c gc => by rw [List.filter_append, List.filter_append, left.classes c gc,
    right.classes c gc]⟩

theorem SameClasses.forall_good {xs ys : List α} (same : SameClasses lt good xs ys) (allGood : ∀ x ∈ xs, good x) :
    ∀ y ∈ ys, good y :=
  fun y member => allGood y (same.perm.mem_iff.mpr member)

theorem IsStableSort.of_sameClasses {xs xs' ys : List α} (sorts : IsStableSort lt good xs ys)
    (same : SameClasses lt good xs' xs) : IsStableSort lt good xs' ys :=
  ⟨sorts.sorted, same.trans sorts.same⟩

theorem isStableSort_self {xs : List α} (sorted : xs.Pairwise fun a b => le lt a b = true) :
    IsStableSort lt good xs xs :=
  ⟨sorted, .refl xs⟩

theorem IsStableSort.append {xs ys l r : List α} (left : IsStableSort lt good xs l)
    (right : IsStableSort lt good ys r) (ordered : ∀ a ∈ xs, ∀ b ∈ ys, le lt a b = true) :
    IsStableSort lt good (xs ++ ys) (l ++ r) :=
  ⟨List.pairwise_append.mpr ⟨left.sorted, right.sorted, fun a inL b inR =>
    ordered a (left.same.perm.mem_iff.mpr inL) b (right.same.perm.mem_iff.mpr inR)⟩,
    left.same.append right.same⟩

theorem isStableSort_of_ties {xs : List α} (tied : ∀ a ∈ xs, ∀ b ∈ xs, ties lt a b = true) :
    IsStableSort lt good xs xs :=
  isStableSort_self (List.pairwise_of_forall_mem_list fun a ma b mb => le_of_ties (tied a ma b mb))

/-- Splitting a list by a test that gives tied values one answer keeps every class of ties: each
class goes whole to one side. -/
theorem sameClasses_filter {xs : List α} (goodX : ∀ x ∈ xs, good x) (q : α → Bool)
    (respects : ∀ {a b}, good a → good b → ties lt a b = true → q a = q b) :
    SameClasses lt good xs (xs.filter q ++ xs.filter fun x => !q x) := by
  refine ⟨(List.filter_append_perm q xs).symm, fun c gc => ?_⟩
  rw [List.filter_append, List.filter_filter, List.filter_filter]
  have side : ∀ x ∈ xs, ties lt c x = true → q x = q c := fun x m tied => (respects gc (goodX x m) tied).symm
  cases qc : q c
  · have stays : xs.filter (fun x => ties lt c x && q x) = [] :=
      List.filter_eq_nil_iff.mpr fun x m => by cases tied : ties lt c x <;> simp_all
    have goes : xs.filter (fun x => ties lt c x && !q x) = xs.filter (ties lt c) :=
      List.filter_congr fun x m => by cases tied : ties lt c x <;> simp_all
    rw [stays, goes, List.nil_append]
  · have stays : xs.filter (fun x => ties lt c x && q x) = xs.filter (ties lt c) :=
      List.filter_congr fun x m => by cases tied : ties lt c x <;> simp_all
    have goes : xs.filter (fun x => ties lt c x && !q x) = [] :=
      List.filter_eq_nil_iff.mpr fun x m => by cases tied : ties lt c x <;> simp_all
    rw [stays, goes, List.append_nil]

section Unique

variable (swo : StrictWeak lt good)
include swo

/-- Two lists in order with the same classes of ties are equal: their first values tie, and the
class of ties of the first value starts with each. -/
theorem eq_of_sameClasses : ∀ {ys zs : List α}, (∀ y ∈ ys, good y) → (ys.Pairwise fun a b => le lt a b = true) →
    (zs.Pairwise fun a b => le lt a b = true) → SameClasses lt good ys zs → ys = zs
  | [], _, _, _, _, same => (List.perm_nil.mp same.perm.symm).symm
  | a :: ys, zs, allGood, sortedYs, sortedZs, same => by
    obtain ⟨b, zs, rfl⟩ : ∃ b zs', zs = b :: zs' := by
      cases zs with
      | nil => exact absurd same.perm.length_eq (by simp)
      | cons b zs' => exact ⟨b, zs', rfl⟩
    have ga := allGood a List.mem_cons_self
    have gb := same.forall_good allGood b List.mem_cons_self
    have ab : le lt a b = true := by
      rcases List.mem_cons.mp (same.perm.mem_iff.mpr List.mem_cons_self) with same | later
      · subst same
        exact swo.le_refl ga
      · exact List.rel_of_pairwise_cons sortedYs later
    have ba : le lt b a = true := by
      rcases List.mem_cons.mp (same.perm.mem_iff.mp List.mem_cons_self) with same | later
      · subst same
        exact swo.le_refl gb
      · exact List.rel_of_pairwise_cons sortedZs later
    have tied : ties lt a b = true := by
      simp only [le, Bool.not_eq_eq_eq_not, Bool.not_true] at ab ba
      simp [ties, ab, ba]
    have heads := same.classes a ga
    rw [List.filter_cons_of_pos (swo.ties_self ga), List.filter_cons_of_pos tied, List.cons.injEq] at heads
    obtain ⟨rfl, -⟩ := heads
    have rest : SameClasses lt good ys zs := by
      refine ⟨same.perm.cons_inv, fun c gc => ?_⟩
      have classes := same.classes c gc
      by_cases tc : ties lt c a = true
      · rwa [List.filter_cons_of_pos tc, List.filter_cons_of_pos tc, List.cons.injEq, eq_self, true_and] at classes
      · rwa [List.filter_cons_of_neg tc, List.filter_cons_of_neg tc] at classes
    rw [eq_of_sameClasses (fun y member => allGood y (.tail _ member)) sortedYs.of_cons sortedZs.of_cons rest]

theorem IsStableSort.unique {xs ys zs : List α} (allGood : ∀ x ∈ xs, good x) (first : IsStableSort lt good xs ys)
    (second : IsStableSort lt good xs zs) : ys = zs :=
  eq_of_sameClasses swo (first.same.forall_good allGood) first.sorted second.sorted (first.same.symm.trans second.same)

end Unique

end Stable

section Merge

variable {α : Type} {lt : α → α → Bool} {good : α → Prop} (swo : StrictWeak lt good)
include swo

theorem StrictWeak.le_of_ties_of_ties {a b c : α} (ga : good a) (gb : good b) (gc : good c)
    (ca : ties lt c a = true) (cb : ties lt c b = true) : le lt a b = true :=
  le_of_ties (swo.ties_trans ga gc gb (by rwa [ties_comm]) cb)

omit swo in
theorem pairwise_attachWith {l : List α} (goodL : ∀ x ∈ l, good x)
    (sorted : l.Pairwise fun a b => le lt a b = true) :
    (l.attachWith good goodL).Pairwise fun a b => le lt a.1 b.1 = true := by
  rw [← List.attachWith_map_subtype_val goodL, List.pairwise_map] at sorted
  exact sorted

/-- Merging keeps lists in order: on the values the order is a strict weak order on, `le` is total
and transitive, which is all the library's lemma asks. -/
theorem sorted_merge {l r : List α} (goodL : ∀ x ∈ l, good x) (goodR : ∀ x ∈ r, good x)
    (sortedL : l.Pairwise fun a b => le lt a b = true) (sortedR : r.Pairwise fun a b => le lt a b = true) :
    (l.merge r (le lt)).Pairwise fun a b => le lt a b = true := by
  let leS : {a // good a} → {a // good a} → Bool := fun a b => le lt a.1 b.1
  have trans : ∀ a b c : {a // good a}, leS a b → leS b c → leS a c := fun a b c => swo.le_trans a.2 b.2 c.2
  have total : ∀ a b : {a // good a}, (leS a b || leS b a) := fun a b => swo.le_total a.2 b.2
  have back : ((l.attachWith good goodL).merge (r.attachWith good goodR) leS).map Subtype.val =
      l.merge r (le lt) := by
    rw [List.map_merge (f := Subtype.val) (s := le lt) fun _ _ _ _ => rfl, List.attachWith_map_subtype_val,
      List.attachWith_map_subtype_val]
  rw [← back, List.pairwise_map]
  exact List.pairwise_merge trans total _ _ (pairwise_attachWith goodL sortedL) (pairwise_attachWith goodR sortedR)

/-- Keeping some values of two lists in order and merging them is merging them and keeping those
values: each kept value is compared with the same kept heads. -/
theorem filter_merge (p : α → Bool) : ∀ {l r : List α}, (∀ x ∈ l, good x) → (∀ x ∈ r, good x) →
    (l.Pairwise fun a b => le lt a b = true) → (r.Pairwise fun a b => le lt a b = true) →
    (l.merge r (le lt)).filter p = (l.filter p).merge (r.filter p) (le lt)
  | [], r, _, _, _, _ => by simp
  | x :: l, [], _, _, _, _ => by simp
  | x :: l, y :: r, goodL, goodR, sortedL, sortedR => by
    have gx := goodL x List.mem_cons_self
    have gy := goodR y List.mem_cons_self
    by_cases xy : le lt x y = true
    · have first : ∀ z ∈ (y :: r).filter p, le lt x z = true := by
        intro z kept
        rcases List.mem_cons.mp (List.mem_filter.mp kept).1 with rfl | later
        · exact xy
        · exact swo.le_trans gx gy (goodR z (.tail _ later)) xy (List.rel_of_pairwise_cons sortedR later)
      have rest := filter_merge p (fun z m => goodL z (.tail _ m)) goodR sortedL.of_cons sortedR
      rw [List.cons_merge_cons_pos _ _ _ xy]
      by_cases px : p x = true
      · rw [List.filter_cons_of_pos px, List.filter_cons_of_pos px, rest, merge_cons_left first]
      · rw [List.filter_cons_of_neg px, List.filter_cons_of_neg px, rest]
    · have yx : lt y x = true := by simpa [le] using xy
      have first : ∀ z ∈ (x :: l).filter p, lt y z = true := by
        intro z kept
        rcases List.mem_cons.mp (List.mem_filter.mp kept).1 with rfl | later
        · exact yx
        · exact swo.lt_of_lt_of_le gy gx (goodL z (.tail _ later)) yx (List.rel_of_pairwise_cons sortedL later)
      have rest := filter_merge p goodL (fun z m => goodR z (.tail _ m)) sortedL sortedR.of_cons
      rw [List.cons_merge_cons_neg _ _ _ xy]
      by_cases py : p y = true
      · rw [List.filter_cons_of_pos py, List.filter_cons_of_pos py, rest, merge_cons_right first]
      · rw [List.filter_cons_of_neg py, List.filter_cons_of_neg py, rest]

theorem le_last {r : List α} {y z : α} (goodR : ∀ b ∈ r ++ [y], good b)
    (sorted : (r ++ [y]).Pairwise fun a b => le lt a b = true) (member : z ∈ r ++ [y]) : le lt z y = true := by
  rcases List.mem_append.mp member with inR | isY
  · exact List.pairwise_append.mp sorted |>.2.2 z inR y List.mem_cons_self
  · rw [List.mem_singleton.mp isY]
    exact swo.le_refl (goodR y (by simp))

/-- The merge of two sorted lists ends with the greater of their last values, the right one on a
tie. -/
theorem merge_append_append {l r : List α} {x y : α} (goodL : ∀ a ∈ l ++ [x], good a)
    (goodR : ∀ b ∈ r ++ [y], good b) (sortedL : (l ++ [x]).Pairwise fun a b => le lt a b = true)
    (sortedR : (r ++ [y]).Pairwise fun a b => le lt a b = true) :
    (l ++ [x]).merge (r ++ [y]) (le lt) =
      if lt y x then l.merge (r ++ [y]) (le lt) ++ [x] else (l ++ [x]).merge r (le lt) ++ [y] := by
  have gx := goodL x (by simp)
  have gy := goodR y (by simp)
  split
  · rename_i yx
    exact merge_append_left fun z inR => swo.lt_of_le_of_lt (goodR z inR) gy gx (le_last swo goodR sortedR inR) yx
  · rename_i yx
    exact merge_append_right fun w inL =>
      swo.le_trans (goodL w inL) gx gy (le_last swo goodL sortedL inL) (by simpa [le] using yx)

/-- Merging two lists in order keeps each class of ties of their concatenation: the members of a
class tie, so the merge of the two parts of a class is their concatenation. -/
theorem sameClasses_merge {l r : List α} (goodL : ∀ x ∈ l, good x) (goodR : ∀ x ∈ r, good x)
    (sortedL : l.Pairwise fun a b => le lt a b = true) (sortedR : r.Pairwise fun a b => le lt a b = true) :
    SameClasses lt good (l ++ r) (l.merge r (le lt)) := by
  refine ⟨(List.merge_perm_append (le lt)).symm, fun c gc => ?_⟩
  rw [filter_merge swo _ goodL goodR sortedL sortedR, List.filter_append, List.merge_of_le]
  intro a b inL inR
  have ⟨memA, ca⟩ := List.mem_filter.mp inL
  have ⟨memB, cb⟩ := List.mem_filter.mp inR
  exact swo.le_of_ties_of_ties (goodL a memA) (goodR b memB) gc ca cb

theorem IsStableSort.merge {xs ys l r : List α} (goodX : ∀ x ∈ xs, good x) (goodY : ∀ y ∈ ys, good y)
    (left : IsStableSort lt good xs l) (right : IsStableSort lt good ys r) :
    IsStableSort lt good (xs ++ ys) (l.merge r (le lt)) := by
  have goodL := left.same.forall_good goodX
  have goodR := right.same.forall_good goodY
  exact ⟨sorted_merge swo goodL goodR left.sorted right.sorted,
    (left.same.append right.same).trans (sameClasses_merge swo goodL goodR left.sorted right.sorted)⟩

/-- The library's merge sort sorts stably: each class of ties is in order already, so the sort
keeps it as a sublist, and a sublist as long as the class is the class. -/
theorem isStableSort_mergeSort {xs : List α} (goodX : ∀ x ∈ xs, good x) :
    IsStableSort lt good xs (xs.mergeSort (le lt)) := by
  let leS : {a // good a} → {a // good a} → Bool := fun a b => le lt a.1 b.1
  have trans : ∀ a b c : {a // good a}, leS a b → leS b c → leS a c := fun a b c => swo.le_trans a.2 b.2 c.2
  have total : ∀ a b : {a // good a}, (leS a b || leS b a) := fun a b => swo.le_total a.2 b.2
  let ys := xs.attachWith good goodX
  have back : (ys.mergeSort leS).map Subtype.val = xs.mergeSort (le lt) := by
    rw [List.map_mergeSort (f := Subtype.val) (s := le lt) fun _ _ _ _ => rfl, List.attachWith_map_subtype_val]
  refine ⟨?_, (List.mergeSort_perm xs _).symm, fun c gc => ?_⟩
  · rw [← back, List.pairwise_map]
    exact List.pairwise_mergeSort trans total ys
  · let inClass : {a // good a} → Bool := fun a => ties lt c a.1
    have sortedClass : (ys.filter inClass).Pairwise fun a b => leS a b = true := by
      refine List.pairwise_of_forall_mem_list fun a ma b mb => ?_
      exact swo.le_of_ties_of_ties a.2 b.2 gc (List.mem_filter.mp ma).2 (List.mem_filter.mp mb).2
    have kept : List.Sublist ((ys.filter inClass).filter inClass) ((ys.mergeSort leS).filter inClass) :=
      (List.sublist_mergeSort trans total sortedClass List.filter_sublist).filter inClass
    have sameLength : ((ys.mergeSort leS).filter inClass).length = (ys.filter inClass).length := by
      rw [← List.countP_eq_length_filter, ← List.countP_eq_length_filter, (List.mergeSort_perm ys leS).countP_eq]
    simp only [List.filter_filter, Bool.and_self] at kept
    have classes := congrArg (List.map Subtype.val) (kept.eq_of_length sameLength.symm)
    have viewed : ∀ L : List {a // good a}, (L.filter inClass).map Subtype.val = (L.map Subtype.val).filter (ties lt c) :=
      fun L => by rw [List.filter_map]; rfl
    rw [viewed, viewed, back, List.attachWith_map_subtype_val] at classes
    exact classes

theorem IsStableSort.eq_mergeSort {xs ys : List α} (goodX : ∀ x ∈ xs, good x)
    (sorts : IsStableSort lt good xs ys) : ys = xs.mergeSort (le lt) :=
  IsStableSort.unique swo goodX sorts (isStableSort_mergeSort swo goodX)

/-- A strictly descending list, reversed, is its stable sort: no two of its values tie. -/
theorem isStableSort_reverse {xs : List α} (goodX : ∀ x ∈ xs, good x)
    (descending : xs.Pairwise fun a b => lt b a = true) : IsStableSort lt good xs xs.reverse := by
  refine ⟨List.pairwise_reverse.mpr (descending.imp_of_mem fun ma mb ba => ?_), (List.reverse_perm xs).symm, ?_⟩
  · simpa [le] using swo.lt_asymm (goodX _ mb) (goodX _ ma) ba
  · intro c gc
    have single : (xs.filter (ties lt c)).Pairwise fun _ _ => False :=
      (descending.filter _).imp_of_mem fun ma mb ba => by
        have ⟨ma, ca⟩ := List.mem_filter.mp ma
        have ⟨mb, cb⟩ := List.mem_filter.mp mb
        have tied := swo.ties_trans (goodX _ mb) gc (goodX _ ma) (by rwa [ties_comm]) ca
        simp [ties, ba] at tied
    rw [List.filter_reverse]
    match xs.filter (ties lt c), single with
    | [], _ | [_], _ => rfl
    | _ :: _ :: _, single => exact absurd (List.rel_of_pairwise_cons single List.mem_cons_self) id

end Merge

end Sorting

end GameVault
