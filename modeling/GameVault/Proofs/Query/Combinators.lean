import Mathlib
import GameVault.Query.Filter

namespace GameVault.Filter

theorem selectsAll_append (doc : Value) (l r : List Filter) :
    selectsAll doc (l ++ r) = (selectsAll doc l && selectsAll doc r) := by
  induction l with
  | nil => simp [selectsAll]
  | cons f fs ih => simp [selectsAll, ih, Bool.and_assoc]

theorem selectsAny_append (doc : Value) (l r : List Filter) :
    selectsAny doc (l ++ r) = (selectsAny doc l || selectsAny doc r) := by
  induction l with
  | nil => simp [selectsAny]
  | cons f fs ih => simp [selectsAny, ih, Bool.or_assoc]

theorem idHintOf_append (l r : List Filter) : idHintOf (l ++ r) = (idHintOf l).or (idHintOf r) := by
  induction l with
  | nil => simp [idHintOf]
  | cons f fs ih => simp [idHintOf, ih, Option.or_assoc]

theorem admits_and (a b : Filter) (doc : Value) : (a.and b).admits doc = (a.admits doc && b.admits doc) := by
  fun_cases Filter.and a b <;> simp [admits, selects, selectsAll, selectsAll_append]

theorem admits_or (a b : Filter) (doc : Value) : (a.or b).admits doc = (a.admits doc || b.admits doc) := by
  fun_cases Filter.or a b <;> simp [admits, selects, selectsAny, selectsAny_append]

theorem admits_not (a : Filter) (doc : Value) : a.not.admits doc = !a.admits doc := by
  fun_cases Filter.not a <;> simp [admits, selects]

theorem idHint_and (a b : Filter) : (a.and b).idHint = a.idHint.or b.idHint := by
  fun_cases Filter.and a b <;> simp [idHint, idHintOf, idHintOf_append]

theorem idHint_active (f : Filter) : f.active.idHint = f.idHint := by
  rw [active, idHint_and]
  simp [idHint]

/-- Matching commutes with the combinators, and pinning an id with conjunction, for every two
filters and every document; in particular the default reads' filter admits the documents marked
live that the caller's filter admits, and pins the caller's id. -/
theorem combinators_commute_with_matching (a b : Filter) (doc : Value) :
    (a.and b).admits doc = (a.admits doc && b.admits doc) ∧
      (a.or b).admits doc = (a.admits doc || b.admits doc) ∧
      a.not.admits doc = !a.admits doc ∧
      (a.and b).idHint = a.idHint.or b.idHint ∧
      a.active.idHint = a.idHint ∧
      a.active.admits doc = ((Filter.eq deletedField (.bool false)).admits doc && a.admits doc) :=
  ⟨admits_and a b doc, admits_or a b doc, admits_not a doc, idHint_and a b, idHint_active a,
    admits_and _ a doc⟩

end GameVault.Filter
