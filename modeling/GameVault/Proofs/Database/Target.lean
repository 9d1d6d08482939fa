import Mathlib
import GameVault.Proofs.Database.Requests
import GameVault.Proofs.Store.Reloads

namespace GameVault

open Database

namespace Filter

mutual
/-- A filter admits no document whose id differs from the id it pins. -/
theorem idHint_pins {doc : Value} {k : Int64} (named : doc.get? idField = some (.int k)) :
    ∀ (f : Filter) {n : Int64}, f.idHint = some n → f.admits doc = true → k = n
  | .eq field v, n, hinted, admitted => by
    cases v with
    | int m =>
      by_cases onId : field = idField
      · subst onId
        simp only [idHint, beq_self_eq_true, if_true, Option.some.injEq] at hinted
        subst hinted
        have pinned : (byId m).admits doc = true := admitted
        simpa [admits_byId_eq named] using pinned
      · simp [idHint, onId] at hinted
    | _ => simp [idHint] at hinted
  | .conj fs, _, hinted, admitted => idHintOf_pins named fs hinted admitted
  | .all, _, hinted, _ | .ne .., _, hinted, _ | .gt .., _, hinted, _ | .gte .., _, hinted, _
  | .lt .., _, hinted, _ | .lte .., _, hinted, _ | .oneOf .., _, hinted, _ | .present .., _, hinted, _
  | .disj _, _, hinted, _ | .neg _, _, hinted, _ => by simp [idHint] at hinted

/-- A conjunction's first pinned id is the id of every document all its members admit. -/
theorem idHintOf_pins {doc : Value} {k : Int64} (named : doc.get? idField = some (.int k)) :
    ∀ (fs : List Filter) {n : Int64}, idHintOf fs = some n → selectsAll doc fs = true → k = n
  | [], _, hinted, _ => by simp [idHintOf] at hinted
  | f :: fs, n, hinted, admitted => by
    simp only [selectsAll, Bool.and_eq_true] at admitted
    rcases first : f.idHint with _ | m
    · simp only [idHintOf, first, Option.none_or] at hinted
      exact idHintOf_pins named fs hinted admitted.2
    · simp only [idHintOf, first, Option.some_or, Option.some.injEq] at hinted
      subst hinted
      exact idHint_pins named f first admitted.1
end

end Filter

namespace Database.Collection

/-- In a valid collection the keyed lookup of a replacement finds what a scan finds: the first
stored document the filter admits. -/
theorem target_eq_find {c : Collection} (valid : c.Valid) (f : Filter) :
    c.target f = c.values.find? f.admits := by
  unfold target
  rcases hinted : f.idHint with _ | n
  · rfl
  · simp only
    rcases found : c.values.find? f.admits with _ | d
    · rcases atId : c.lookup n with _ | d
      · rfl
      · have refused := List.find?_eq_none.mp found d (List.mem_map.mpr ⟨_, lookup_eq_some atId, rfl⟩)
        simp [refused]
    · obtain ⟨⟨k, d'⟩, member, rfl⟩ := List.mem_map.mp (List.mem_of_find?_eq_some found)
      have admitted : f.admits d' = true := List.find?_some found
      have pinned := Filter.idHint_pins (valid.stored _ member).id f hinted admitted
      subst pinned
      simp [valid.lookup_of_mem member, admitted]

end Database.Collection

/-- A filter that pins an id admits only documents with that id. Hence in every collection the
servers reach, by any requests, the document a replacement targets through the keyed lookup of the
pinned id is the first stored document, in order of id, that the filter admits: the document a
scan finds, so the replacement answers and changes the collection as it would after a scan. -/
theorem keyed_target_agrees_with_scan :
    (∀ (f : Filter) (doc : Value) (k n : Int64), doc.get? idField = some (.int k) → f.idHint = some n →
        f.admits doc = true → k = n) ∧
      ∀ (requests : List Request) (slot : Nat) (f : Filter),
        let c := (Request.run requests {}).collection slot
        c.target f = c.values.find? f.admits :=
  ⟨fun f _ _ _ named hinted admitted => Filter.idHint_pins named f hinted admitted,
    fun requests slot f => Collection.target_eq_find ((Request.valid_run requests World.valid_empty).collection slot) f⟩

end GameVault
