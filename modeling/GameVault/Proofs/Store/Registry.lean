import Mathlib
import GameVault.Proofs.Store.Operations

namespace GameVault

open Database

namespace Store

/-- Resolving a kind consults the registry alone: a bound name answers by its owner, an unbound one
is refused when empty and bound to the kind otherwise. -/
theorem run_resolve (s : Store) (w : World) (k : Kind) :
    (resolve k).run.run (s, w) =
      match s.registry.lookup k.collection with
      | some owner =>
        (if owner = k then .ok k.collection
          else .error (.collectionConflict k.collection owner.typeName k.typeName), (s, w))
      | none =>
        if k.collection.isEmpty then
          (.error (.invalidOperation (k.typeName ++ " declares an empty collection name")), (s, w))
        else (.ok k.collection, ({ s with registry := s.registry ++ [(k.collection, k)] }, w)) := by
  rw [resolve, run_bind_ok (run_get _)]
  rcases owned : s.registry.lookup k.collection with _ | owner
  · by_cases empty : k.collection.isEmpty
    · simp only [owned, empty, if_true]
      rfl
    · simp only [owned, empty, Bool.false_eq_true, if_false]
      rfl
  · by_cases same : owner = k
    · simp only [owned, same, if_true]
      rfl
    · simp only [owned, same, if_false]
      rfl

/-- The kind that owns a collection name once kinds were resolved in turn: the first of them to
declare it. No kind owns the empty name. -/
def firstOwner (ks : List Kind) (name : String) : Option Kind :=
  if name = "" then none else ks.find? (·.collection = name)

theorem firstOwner_empty (ks : List Kind) : firstOwner ks "" = none := by
  simp [firstOwner]

theorem firstOwner_append_other (ks : List Kind) {k : Kind} {name : String} (other : k.collection ≠ name) :
    firstOwner (ks ++ [k]) name = firstOwner ks name := by
  simp [firstOwner, List.find?_append, other]

theorem firstOwner_append_self (ks : List Kind) {k : Kind} (named : k.collection ≠ "") :
    firstOwner (ks ++ [k]) k.collection = (firstOwner ks k.collection).or (some k) := by
  simp [firstOwner, List.find?_append, named]

theorem ne_empty_of_firstOwner {ks : List Kind} {name : String} {owner : Kind}
    (owned : firstOwner ks name = some owner) : name ≠ "" := by
  rintro rfl
  simp [firstOwner_empty] at owned

/-- A registry binding each name once, to the first of the kinds resolved so far that declares it. -/
structure RegistryOf (ks : List Kind) (registry : List (String × Kind)) : Prop where
  lookup : ∀ name, registry.lookup name = firstOwner ks name
  distinct : (registry.map (·.1)).Nodup

theorem registryOf_nil : RegistryOf [] [] := ⟨fun name => by simp [firstOwner], List.nodup_nil⟩

theorem RegistryOf.append_keeping {ks : List Kind} {registry : List (String × Kind)} {k : Kind}
    (registered : RegistryOf ks registry) (keeps : firstOwner (ks ++ [k]) k.collection = registry.lookup k.collection) :
    RegistryOf (ks ++ [k]) registry := by
  refine ⟨fun name => ?_, registered.distinct⟩
  by_cases same : k.collection = name
  · rw [← same, keeps]
  · rw [firstOwner_append_other ks same, registered.lookup]

/-- What resolving a kind after others answers: success exactly when the kind owns its name, this
call counted; otherwise a conflict naming the owner, or a refusal of an empty name. -/
structure ResolvesAs (ks : List Kind) (k : Kind) (r : Except StoreError String) : Prop where
  ok_iff : r = .ok k.collection ↔ firstOwner (ks ++ [k]) k.collection = some k
  empty : k.collection = "" →
    r = .error (.invalidOperation (k.typeName ++ " declares an empty collection name"))
  conflict : ∀ owner, firstOwner (ks ++ [k]) k.collection = some owner → owner ≠ k →
    r = .error (.collectionConflict k.collection owner.typeName k.typeName)

/-- One resolution: it answers as the first owners say, leaves the world alone, and keeps the
registry binding first owners, now counting the kind resolved. -/
theorem resolve_step {ks : List Kind} {s : Store} (registered : RegistryOf ks s.registry) (w : World) (k : Kind) :
    ResolvesAs ks k ((resolve k).run.run (s, w)).1 ∧ RegistryOf (ks ++ [k]) ((resolve k).run.run (s, w)).2.1.registry ∧
      ((resolve k).run.run (s, w)).2.2 = w := by
  have others : ∀ name, k.collection ≠ name → firstOwner (ks ++ [k]) name = s.registry.lookup name :=
    fun name other => by rw [firstOwner_append_other ks other, registered.lookup]
  rw [run_resolve]
  rcases owned : s.registry.lookup k.collection with _ | owner
  · by_cases empty : k.collection = ""
    · have stays : firstOwner (ks ++ [k]) k.collection = none := by rw [empty, firstOwner_empty]
      have refused : k.collection.isEmpty = true := by rw [empty]; rfl
      simp only [refused, if_true]
      refine ⟨⟨by simp [stays], fun _ => rfl, fun o found _ => ?_⟩, registered.append_keeping (by rw [stays, owned]),
        trivial⟩
      rw [stays] at found
      cases found
    · have first : firstOwner ks k.collection = none := by rw [← registered.lookup, owned]
      have mine : firstOwner (ks ++ [k]) k.collection = some k := by
        rw [firstOwner_append_self ks empty, first, Option.none_or]
      have named : k.collection.isEmpty = false := by simpa using empty
      simp only [named, Bool.false_eq_true, if_false]
      refine ⟨⟨by simp [mine], fun absurd => (empty absurd).elim, fun o found other => ?_⟩, ⟨fun name => ?_, ?_⟩,
        trivial⟩
      · rw [mine] at found
        exact (other (Option.some.inj found).symm).elim
      · rw [List.lookup_append]
        by_cases same : k.collection = name
        · subst same
          simp [owned, mine]
        · have other : (name == k.collection) = false := by simpa using Ne.symm same
          have single : [(k.collection, k)].lookup name = none := by simp [List.lookup, other]
          rw [single, Option.or_none, others name same]
      · rw [List.map_append, List.nodup_append]
        refine ⟨registered.distinct, by simp, fun a bound b added same => ?_⟩
        simp only [List.map_cons, List.map_nil, List.mem_singleton] at added
        obtain ⟨p, member, rfl⟩ := List.mem_map.mp bound
        have unbound := List.lookup_eq_none_iff.mp owned p member
        simp [same, added] at unbound
  · have first : firstOwner ks k.collection = some owner := by rw [← registered.lookup, owned]
    have named := ne_empty_of_firstOwner first
    have keeps : firstOwner (ks ++ [k]) k.collection = some owner := by
      rw [firstOwner_append_self ks named, first, Option.some_or]
    refine ⟨⟨?_, fun absurd => (named absurd).elim, fun o found other => ?_⟩,
      registered.append_keeping (by rw [keeps, owned]), rfl⟩
    · rw [keeps]
      by_cases same : owner = k <;> simp [same]
    · rw [keeps] at found
      obtain rfl := Option.some.inj found
      simp [other]

theorem ResolvesAs.ok_owner {ks : List Kind} {k : Kind} {r : Except StoreError String} (answers : ResolvesAs ks k r)
    {name : String} (ok : r = .ok name) : name = k.collection ∧ firstOwner (ks ++ [k]) k.collection = some k := by
  have named : k.collection ≠ "" := fun empty => by rw [answers.empty empty] at ok; cases ok
  obtain ⟨owner, owned⟩ : ∃ owner, firstOwner (ks ++ [k]) k.collection = some owner := by
    rw [firstOwner_append_self ks named]
    cases firstOwner ks k.collection <;> simp
  by_cases same : owner = k
  · subst same
    rw [answers.ok_iff.mpr owned] at ok
    exact ⟨(Except.ok.inj ok).symm, owned⟩
  · rw [answers.conflict owner owned same] at ok
    cases ok

theorem firstOwner_append_of_some {ks : List Kind} {name : String} {owner : Kind}
    (owned : firstOwner ks name = some owner) (later : List Kind) : firstOwner (ks ++ later) name = some owner := by
  have named := ne_empty_of_firstOwner owned
  simp only [firstOwner, named, if_false] at owned ⊢
  rw [List.find?_append, owned, Option.some_or]

/-- Resolves kinds in turn, each from the store and world the call before left, and collects the
answers. -/
def resolveEach : List Kind → Store × World → List (Except StoreError String) × (Store × World)
  | [], σ => ([], σ)
  | k :: ks, σ =>
    let first := (resolve k).run.run σ
    let rest := resolveEach ks first.2
    (first.1 :: rest.1, rest.2)

/-- Over a run of resolutions, each call answers as the first owners say and the registry ends
binding the first owners of the whole run; the world is left alone. -/
theorem resolveEach_spec (later : List Kind) :
    ∀ {ks : List Kind} {s : Store}, RegistryOf ks s.registry → ∀ w : World,
      RegistryOf (ks ++ later) (resolveEach later (s, w)).2.1.registry ∧ (resolveEach later (s, w)).2.2 = w ∧
        ∀ pre k post, later = pre ++ k :: post →
          ∃ r, (resolveEach later (s, w)).1[pre.length]? = some r ∧ ResolvesAs (ks ++ pre) k r := by
  induction later with
  | nil =>
    intro ks s registered w
    refine ⟨by simpa [resolveEach] using registered, rfl, fun pre k post split => ?_⟩
    cases pre <;> cases split
  | cons k later ih =>
    intro ks s registered w
    obtain ⟨answered, registered₁, world⟩ := resolve_step registered w k
    rcases called : (resolve k).run.run (s, w) with ⟨r, s₁, w₁⟩
    rw [called] at answered registered₁ world
    subst world
    obtain ⟨final, world, answers⟩ := ih registered₁ w₁
    refine ⟨by simpa [resolveEach, called] using final, by simpa [resolveEach, called] using world,
      fun pre k' post split => ?_⟩
    cases pre with
    | nil =>
      cases split
      exact ⟨r, by simp [resolveEach, called], by simpa using answered⟩
    | cons p pre =>
      injection split with first rest
      subst first
      obtain ⟨r', found, answered'⟩ := answers pre k' post rest
      exact ⟨r', by simpa [resolveEach, called] using found, by simpa using answered'⟩

theorem mem_registered {s : Store} {name : String} : name ∈ s.registered ↔ (s.registry.lookup name).isSome := by
  rw [registered, List.mem_mergeSort, List.lookup_isSome_iff]
  simp only [List.mem_map, beq_iff_eq]
  constructor
  · rintro ⟨p, member, rfl⟩
    exact ⟨p, member, rfl⟩
  · rintro ⟨p, member, same⟩
    exact ⟨p, member, same.symm⟩

theorem registered_strictly_sorted {s : Store} (distinct : (s.registry.map (·.1)).Nodup) :
    s.registered.Pairwise (· < ·) := by
  have sorted : s.registered.Pairwise fun a b => decide (a ≤ b) = true :=
    List.pairwise_mergeSort (fun a b c ab bc => by simpa using le_trans (of_decide_eq_true ab) (of_decide_eq_true bc))
      (fun a b => by simpa using le_total a b) _
  have unique : s.registered.Nodup := (List.mergeSort_perm _ _).nodup_iff.mpr distinct
  exact (sorted.and unique).imp fun ⟨le, ne⟩ => lt_of_le_of_ne (of_decide_eq_true le) ne

/-- From a store that has resolved no kind, over any run of resolutions of any kinds, each
collection name is bound to at most one kind: the first of the run to declare it, the empty name
never. Each call succeeds exactly when its kind is that first one, with the kind's collection;
otherwise it is refused as a conflict naming the first kind, or, for the empty name, as an invalid
operation. The registered names are the bound ones, sorted and each once. So two calls that
succeed with the same collection were made for the same kind. -/
theorem resolver_binds_first_owner (ks : List Kind) (s : Store) (w : World) :
    let run := resolveEach ks ({ s with registry := [] }, w)
    (∀ pre k post, ks = pre ++ k :: post → ∃ r, run.1[pre.length]? = some r ∧ ResolvesAs pre k r) ∧
      (∀ name, run.2.1.registry.lookup name = firstOwner ks name) ∧
      (run.2.1.registry.map (·.1)).Nodup ∧
      (∀ name, name ∈ run.2.1.registered ↔ (firstOwner ks name).isSome) ∧
      run.2.1.registered.Pairwise (· < ·) ∧
      (∀ pre k post pre' k' post' name, ks = pre ++ k :: post → ks = pre' ++ k' :: post' →
        run.1[pre.length]? = some (.ok name) → run.1[pre'.length]? = some (.ok name) → k = k') := by
  intro run
  obtain ⟨registered, -, answers⟩ := @resolveEach_spec ks [] { s with registry := [] } registryOf_nil w
  simp only [List.nil_append] at registered answers
  have owner : ∀ pre k post name, ks = pre ++ k :: post → run.1[pre.length]? = some (.ok name) →
      firstOwner ks name = some k := by
    intro pre k post name split found
    obtain ⟨r, found', answered⟩ := answers pre k post split
    rw [found] at found'
    obtain ⟨rfl, owned⟩ := answered.ok_owner (Option.some.inj found').symm
    have := firstOwner_append_of_some owned post
    rwa [List.append_assoc, List.singleton_append, ← split] at this
  refine ⟨answers, registered.lookup, registered.distinct, fun name => ?_, registered_strictly_sorted registered.distinct,
    fun pre k post pre' k' post' name split split' found found' => ?_⟩
  · rw [mem_registered, registered.lookup]
  · exact Option.some.inj ((owner pre k post name split found).symm.trans (owner pre' k' post' name split' found'))

end Store
end GameVault
