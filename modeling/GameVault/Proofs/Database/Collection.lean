import Mathlib
import GameVault.Proofs.Cbor.Canonical
import GameVault.Database.Collection

namespace GameVault

theorem except_bind_eq_ok {ε α β : Type} {x : Except ε α} {f : α → Except ε β} {b : β} :
    x >>= f = .ok b ↔ ∃ a, x = .ok a ∧ f a = .ok b := by
  cases x <;> simp [bind, Except.bind]

namespace Value

theorem lookup_eq_none_iff {key : String} {entries : List (Value × Value)} :
    lookup key entries = none ↔ ∀ p ∈ entries, isKey key p.1 = false := by
  induction entries with
  | nil => simp [lookup]
  | cons p rest ih =>
    obtain ⟨k, v⟩ := p
    by_cases keyed : isKey key k <;> simp [lookup, keyed, ih]

theorem lookup_eq_some_of_unique {key : String} {entries : List (Value × Value)} {x : Value}
    (found : ∃ p ∈ entries, isKey key p.1 = true) (unique : ∀ p ∈ entries, isKey key p.1 = true → p.2 = x) :
    lookup key entries = some x := by
  induction entries with
  | nil => simp at found
  | cons p rest ih =>
    obtain ⟨k, v⟩ := p
    by_cases keyed : isKey key k
    · simp only [lookup, keyed, if_true]
      exact congrArg some (unique (k, v) (by simp) keyed)
    · simp only [lookup, keyed, Bool.false_eq_true, if_false]
      refine ih ?_ (fun q member => unique q (by simp [member]))
      obtain ⟨q, member, qKeyed⟩ := found
      rcases List.mem_cons.mp member with rfl | member
      · simp [keyed] at qKeyed
      · exact ⟨q, member, qKeyed⟩

theorem replaceFirst_eq_none {key : String} {x : Value} {entries : List (Value × Value)}
    (absent : ∀ p ∈ entries, isKey key p.1 = false) : replaceFirst key x entries = none := by
  induction entries with
  | nil => rfl
  | cons p rest ih =>
    obtain ⟨k, v⟩ := p
    simp [replaceFirst, absent (k, v) (by simp), ih (fun q member => absent q (by simp [member]))]

theorem set_of_lookup_eq_none {entries : List (Value × Value)} {key : String} {x : Value}
    (absent : lookup key entries = none) :
    (Value.map entries).set key x = (none, .map (sortEntries (entries ++ [(.text key, x)]))) := by
  simp [set, replaceFirst_eq_none (lookup_eq_none_iff.mp absent)]

end Value

namespace Database

open Value Cbor

/-- What a collection holds under the key `k`: a map whose `id` is the integer `k` and that has a
canonical encoding. -/
structure Stored (k : Int64) (d : Value) : Prop where
  isMap : ∃ entries, d = .map entries
  id : d.get? idField = some (.int k)
  encodable : d.Encodable

/-- A map with a canonical encoding and no `id`, given the integer `id`, can be stored under it. -/
theorem stored_set_id {entries : List (Value × Value)} {id : Int64} (encodable : (Value.map entries).Encodable)
    (absent : (Value.map entries).get? idField = none) :
    Stored id ((Value.map entries).set idField (.int id)).2 := by
  have noKey : lookup idField entries = none := absent
  rw [set_of_lookup_eq_none noKey]
  have perm : (sortEntries (entries ++ [(.text idField, .int id)])).Perm (entries ++ [(.text idField, .int id)]) :=
    List.mergeSort_perm _ _
  obtain ⟨distinct, inner⟩ := encodable_map.mp encodable
  refine ⟨⟨_, rfl⟩, ?_, ?_⟩
  · have idKeyed : isKey idField (.text idField) = true := by decide
    refine lookup_eq_some_of_unique ⟨(.text idField, .int id), perm.mem_iff.mpr (by simp), idKeyed⟩ ?_
    intro p member keyed
    rcases List.mem_append.mp (perm.mem_iff.mp member) with old | added
    · rw [lookup_eq_none_iff.mp noKey p old] at keyed
      exact absurd keyed Bool.false_ne_true
    · rw [List.mem_singleton.mp added]
  · refine encodable_map.mpr ⟨?_, ?_⟩
    · rw [(perm.map _).nodup_iff, List.map_append, List.nodup_append]
      refine ⟨distinct, by simp, ?_⟩
      intro a old b added same
      obtain ⟨p, member, rfl⟩ := List.mem_map.mp old
      rw [List.map_singleton, List.mem_singleton] at added
      rw [added] at same
      have isText := eq_text_of_write_eq (inner p member).1 (by decide) same
      have keyed := lookup_eq_none_iff.mp noKey p member
      rw [isText] at keyed
      exact absurd keyed (by decide)
    · intro p member
      rcases List.mem_append.mp (perm.mem_iff.mp member) with old | added
      · exact inner p old
      · rw [List.mem_singleton.mp added]
        exact ⟨rfl, rfl⟩

theorem encodedLength_eq_ok {name : String} {doc : Value} {bytes : Nat} (ok : encodedLength name doc = .ok bytes) :
    (∃ entries, doc = .map entries) ∧ doc.Encodable := by
  unfold encodedLength at ok
  cases doc with
  | map entries =>
    rcases encoded : Cbor.encode (.map entries) with e | bs
    · simp [encoded] at ok
    · exact ⟨⟨entries, rfl⟩, (encode_eq_ok_iff.mp encoded).1⟩
  | _ => simp at ok

theorem idOf_eq_ok {name : String} {doc : Value} {id : Int64} (ok : idOf name doc = .ok id) :
    doc.get? idField = some (.int id) := by
  unfold idOf at ok
  rcases found : doc.get? idField with _ | v
  · simp [found] at ok
  · cases v <;> simp [found] at ok
    rw [ok]

/-- A replacement that `keepId` accepts for the id `id` can be stored under it. -/
theorem keepId_stored {id : Int64} {replacement doc : Value} (isMap : ∃ entries, replacement = .map entries)
    (encodable : replacement.Encodable) (kept : Collection.keepId id replacement = .ok doc) : Stored id doc := by
  obtain ⟨entries, rfl⟩ := isMap
  unfold Collection.keepId at kept
  rcases present : (Value.map entries).get? idField with _ | found
  · rw [present] at kept
    injection kept with same
    subst same
    exact stored_set_id encodable present
  · rw [present] at kept
    cases found with
    | int n =>
      by_cases same : n = id
      · simp only [same, if_true] at kept
        injection kept with kept
        subst kept
        exact ⟨⟨entries, rfl⟩, by rw [present, same], encodable⟩
      · simp [same] at kept
    | _ => simp at kept

theorem mem_insertByKey {id : Int64} {doc : Value} {documents : List (Int64 × Value)} {p : Int64 × Value} :
    p ∈ insertByKey id doc documents ↔ p = (id, doc) ∨ p ∈ documents := by
  induction documents with
  | nil => simp [insertByKey]
  | cons q rest ih =>
    obtain ⟨k, d⟩ := q
    unfold insertByKey
    split_ifs <;> simp [ih, or_left_comm]

theorem insertByKey_increasing {id : Int64} {doc : Value} {documents : List (Int64 × Value)}
    (increasing : (documents.map (·.1)).Pairwise fun a b => a.toInt < b.toInt) (fresh : ∀ p ∈ documents, p.1 ≠ id) :
    ((insertByKey id doc documents).map (·.1)).Pairwise fun a b => a.toInt < b.toInt := by
  induction documents with
  | nil => simp [insertByKey]
  | cons q rest ih =>
    obtain ⟨k, d⟩ := q
    simp only [List.map_cons, List.pairwise_cons, List.mem_map] at increasing ⊢
    unfold insertByKey
    split_ifs with before
    · simp only [List.map_cons, List.pairwise_cons, List.mem_cons, List.mem_map]
      refine ⟨?_, increasing.1, increasing.2⟩
      rintro b (rfl | ⟨p, member, rfl⟩)
      · exact before
      · exact before.trans (increasing.1 p.1 ⟨p, member, rfl⟩)
    · have after : k.toInt < id.toInt := by
        have different : k.toInt ≠ id.toInt := fun same => fresh (k, d) (by simp) (Int64.toInt_inj.mp same)
        omega
      simp only [List.map_cons, List.pairwise_cons, List.mem_map]
      refine ⟨?_, ih increasing.2 (fun p member => fresh p (by simp [member]))⟩
      rintro b ⟨p, member, rfl⟩
      rcases mem_insertByKey.mp member with rfl | member
      · exact after
      · exact increasing.1 p.1 ⟨p, member, rfl⟩

theorem map_fst_replaceByKey (id : Int64) (doc : Value) (documents : List (Int64 × Value)) :
    (replaceByKey id doc documents).map (·.1) = documents.map (·.1) := by
  induction documents with
  | nil => rfl
  | cons q rest ih =>
    obtain ⟨k, d⟩ := q
    unfold replaceByKey
    split_ifs <;> simp [ih]

theorem mem_replaceByKey {id : Int64} {doc : Value} {documents : List (Int64 × Value)} {p : Int64 × Value}
    (member : p ∈ replaceByKey id doc documents) : p ∈ documents ∨ p = (id, doc) := by
  induction documents with
  | nil => simp [replaceByKey] at member
  | cons q rest ih =>
    obtain ⟨k, d⟩ := q
    unfold replaceByKey at member
    split_ifs at member with same
    · rcases List.mem_cons.mp member with rfl | member
      · exact Or.inr (by rw [same])
      · exact Or.inl (by simp [member])
    · rcases List.mem_cons.mp member with rfl | member
      · exact Or.inl (by simp)
      · exact (ih member).imp_left fun member => by simp [member]

namespace Collection

/-- The representation invariant: what is stored under each id, ids in strictly increasing order,
and index names all different. -/
structure Valid (c : Collection) : Prop where
  stored : ∀ p ∈ c.documents, Stored p.1 p.2
  increasing : (c.documents.map (·.1)).Pairwise fun a b => a.toInt < b.toInt
  indexNames : (c.indexes.map (·.name)).Nodup

theorem valid_empty : ({} : Collection).Valid := ⟨by simp, by simp, by simp⟩

theorem Valid.sublist {c : Collection} (valid : c.Valid) {kept : List (Int64 × Value)}
    (sub : kept.Sublist c.documents) : ({ c with documents := kept } : Collection).Valid :=
  ⟨fun p member => valid.stored p (sub.subset member), valid.increasing.sublist (sub.map _), valid.indexNames⟩

theorem insert_eq_ok {name : String} {c c' : Collection} {doc : Value} {id : Int64} {bytes : Nat}
    (ok : c.insert name doc = .ok (c', id, bytes)) :
    encodedLength name doc = .ok bytes ∧ idOf name doc = .ok id ∧ c.contains id = false ∧
      c' = { c with documents := insertByKey id doc c.documents } := by
  obtain ⟨n, length, rest⟩ := except_bind_eq_ok.mp ok
  obtain ⟨k, key, rest⟩ := except_bind_eq_ok.mp rest
  by_cases present : c.contains k
  · simp [present, throw, throwThe, MonadExceptOf.throw] at rest
  · simp only [present, Bool.false_eq_true, if_false, pure, Except.pure, Except.ok.injEq, Prod.mk.injEq] at rest
    obtain ⟨rfl, rfl, rfl⟩ := rest
    exact ⟨length, key, by simpa using present, rfl⟩

theorem valid_insert {name : String} {c c' : Collection} {doc : Value} {id : Int64} {bytes : Nat}
    (valid : c.Valid) (ok : c.insert name doc = .ok (c', id, bytes)) : c'.Valid := by
  obtain ⟨length, key, absent, rfl⟩ := insert_eq_ok ok
  obtain ⟨isMap, encodable⟩ := encodedLength_eq_ok length
  have fresh : ∀ p ∈ c.documents, p.1 ≠ id := by
    intro p member same
    have : c.contains id = true := List.any_eq_true.mpr ⟨p, member, by simp [same]⟩
    rw [absent] at this
    exact Bool.false_ne_true this
  refine ⟨fun p member => ?_, insertByKey_increasing valid.increasing fresh, valid.indexNames⟩
  rcases mem_insertByKey.mp member with rfl | member
  · exact ⟨isMap, idOf_eq_ok key, encodable⟩
  · exact valid.stored p member

theorem valid_insertMany {name : String} {ordered : Bool} (docs : List Value) :
    ∀ {c : Collection} {i : Nat}, c.Valid → (c.insertMany name ordered i docs).1.Valid := by
  induction docs with
  | nil => intro c i valid; exact valid
  | cons doc rest ih =>
    intro c i valid
    unfold insertMany
    rcases inserted : c.insert name doc with e | ⟨c', id, bytes⟩
    · cases ordered
      · exact ih valid
      · exact valid
    · exact ih (valid_insert valid inserted)

/-- What a successful replacement does to the documents: it puts a storable document under an id in
place of the one there, or it inserts a document, or it changes nothing. -/
theorem replaceOne_cases {name : String} {c c' : Collection} {f : Filter} {replacement : Value} {upsert : Bool}
    {out : ReplaceOutcome} {bytes : Nat} (ok : c.replaceOne name f replacement upsert = .ok (c', out, bytes)) :
    (∃ id doc, Stored id doc ∧ c' = { c with documents := replaceByKey id doc c.documents }) ∨
      (∃ doc id size, c.insert name doc = .ok (c', id, size)) ∨ c' = c := by
  obtain ⟨n, length, rest⟩ := except_bind_eq_ok.mp ok
  obtain ⟨isMap, encodable⟩ := encodedLength_eq_ok length
  rcases targeted : c.target f with _ | current <;> simp only [targeted] at rest
  · by_cases up : upsert
    · simp only [up, if_true] at rest
      obtain ⟨⟨c'', id, size⟩, inserted, rest⟩ := except_bind_eq_ok.mp rest
      simp only [pure, Except.pure, Except.ok.injEq, Prod.mk.injEq] at rest
      obtain ⟨rfl, -, -⟩ := rest
      exact Or.inr (Or.inl ⟨_, id, size, inserted⟩)
    · simp only [up, Bool.false_eq_true, if_false, pure, Except.pure, Except.ok.injEq, Prod.mk.injEq] at rest
      exact Or.inr (Or.inr rest.1.symm)
  · obtain ⟨id, -, rest⟩ := except_bind_eq_ok.mp rest
    obtain ⟨doc, kept, rest⟩ := except_bind_eq_ok.mp rest
    simp only [pure, Except.pure, Except.ok.injEq, Prod.mk.injEq] at rest
    obtain ⟨rfl, -, -⟩ := rest
    split_ifs
    · exact Or.inl ⟨id, doc, keepId_stored isMap encodable kept, rfl⟩
    · exact Or.inr (Or.inr rfl)

theorem valid_replaceOne {name : String} {c c' : Collection} {f : Filter} {replacement : Value} {upsert : Bool}
    {out : ReplaceOutcome} {bytes : Nat} (valid : c.Valid)
    (ok : c.replaceOne name f replacement upsert = .ok (c', out, bytes)) : c'.Valid := by
  rcases replaceOne_cases ok with ⟨id, doc, stored, rfl⟩ | ⟨doc, id, size, inserted⟩ | rfl
  · refine ⟨fun p member => ?_, ?_, valid.indexNames⟩
    · rcases mem_replaceByKey member with old | rfl
      · exact valid.stored p old
      · exact stored
    · rw [map_fst_replaceByKey]
      exact valid.increasing
  · exact valid_insert valid inserted
  · exact valid

/-- A successful replacement keeps every id stored: it replaces a document under its own id, or
adds one. -/
theorem replaceOne_keeps_ids {name : String} {c c' : Collection} {f : Filter} {replacement : Value}
    {upsert : Bool} {out : ReplaceOutcome} {bytes : Nat}
    (ok : c.replaceOne name f replacement upsert = .ok (c', out, bytes)) :
    c.documents.map (·.1) ⊆ c'.documents.map (·.1) := by
  rcases replaceOne_cases ok with ⟨id, doc, -, rfl⟩ | ⟨doc, id, size, inserted⟩ | rfl
  · rw [map_fst_replaceByKey]
    exact List.Subset.refl _
  · obtain ⟨-, -, -, rfl⟩ := insert_eq_ok inserted
    intro k member
    obtain ⟨p, old, rfl⟩ := List.mem_map.mp member
    exact List.mem_map.mpr ⟨p, mem_insertByKey.mpr (Or.inr old), rfl⟩
  · exact List.Subset.refl _

theorem valid_deleteOne {c : Collection} (valid : c.Valid) (f : Filter) : (c.deleteOne f).1.Valid := by
  unfold deleteOne
  split
  · exact valid.sublist List.filter_sublist
  · exact valid

theorem valid_deleteMany {c : Collection} (valid : c.Valid) (f : Filter) : (c.deleteMany f).1.Valid :=
  valid.sublist List.filter_sublist

theorem valid_createIndex {c c' : Collection} {m : IndexModel} {name : String} (valid : c.Valid)
    (ok : c.createIndex m = .ok (c', name)) : c'.Valid := by
  unfold createIndex at ok
  dsimp only at ok
  split_ifs at ok with noKeys taken
  injection ok with ok
  obtain ⟨rfl, -⟩ := Prod.mk.inj ok
  refine ⟨valid.stored, valid.increasing, ?_⟩
  rw [List.map_append, List.nodup_append]
  refine ⟨valid.indexNames, by simp, ?_⟩
  intro a old b added same
  obtain ⟨info, member, rfl⟩ := List.mem_map.mp old
  simp only [List.map_cons, List.map_nil, List.mem_singleton] at added
  exact taken (List.any_eq_true.mpr ⟨info, member, by simp [same, added]⟩)

theorem valid_dropIndex {c c' : Collection} {name : String} (valid : c.Valid) (ok : c.dropIndex name = .ok c') :
    c'.Valid := by
  unfold dropIndex at ok
  split_ifs at ok
  injection ok with ok
  subst ok
  exact ⟨valid.stored, valid.increasing, valid.indexNames.sublist (List.eraseP_sublist.map _)⟩

theorem Valid.id_unique {c : Collection} (valid : c.Valid) {p q : Int64 × Value} (first : p ∈ c.documents)
    (second : q ∈ c.documents) (same : p.2.get? idField = q.2.get? idField) : p = q := by
  rw [(valid.stored p first).id, (valid.stored q second).id] at same
  have keys : (c.documents.map (·.1)).Nodup := valid.increasing.imp fun before => Int.ne_of_lt before ∘ congrArg _
  have sameKey : p.1 = q.1 := by simpa using same
  exact List.inj_on_of_nodup_map keys first second sameKey

end Collection

theorem admits_byId {doc : Value} {id : Int64} (named : doc.get? idField = some (.int id)) :
    (Filter.byId id).admits doc = true := by
  have path : doc.getPath? Filter.idField = doc.get? idField := by
    simp [Value.getPath?, show Filter.idField.splitOn "." = [idField] by cbv]
  simp [Filter.admits, Filter.byId, Filter.selects, Filter.fieldEquals, path, named, Value.queryEq,
    Value.sameKind, Value.queryCmp]

theorem idHint_byId (id : Int64) : (Filter.byId id).idHint = some id := by
  simp [Filter.byId, Filter.idHint, Filter.idField]

namespace Collection

theorem lookup_eq_some {c : Collection} {id : Int64} {d : Value} (found : c.lookup id = some d) :
    (id, d) ∈ c.documents := by
  obtain ⟨p, first, rfl⟩ := Option.map_eq_some_iff.mp found
  have atId := List.find?_some first
  rw [show p = (id, p.2) from Prod.ext (of_decide_eq_true atId) rfl] at first
  exact List.mem_of_find?_eq_some first

theorem contains_eq_false_of_lookup {c : Collection} {id : Int64} (absent : c.lookup id = none) :
    c.contains id = false := by
  simp only [lookup, Option.map_eq_none_iff, List.find?_eq_none] at absent
  simpa [contains] using absent

theorem Valid.target_byId {c : Collection} (valid : c.Valid) (id : Int64) :
    c.target (Filter.byId id) = c.lookup id := by
  rcases found : c.lookup id with _ | d
  · simp [target, idHint_byId, found]
  · simp [target, idHint_byId, found, admits_byId (valid.stored _ (lookup_eq_some found)).id]

/-- A map with a canonical encoding that names an id replaces, under that id's filter, whatever a
valid collection holds; the replacement is acknowledged. -/
theorem replaceOne_byId_ok {name : String} {c : Collection} (valid : c.Valid) {doc : Value} {id : Int64}
    (isMap : ∃ entries, doc = .map entries) (encodable : doc.Encodable) (named : doc.get? idField = some (.int id))
    (upsert : Bool) :
    ∃ c' r bytes, c.replaceOne name (Filter.byId id) doc upsert = .ok (c', r, bytes) ∧ r.acknowledged = true := by
  obtain ⟨entries, rfl⟩ := isMap
  have sized : encodedLength name (.map entries) = .ok (Cbor.write (.map entries)).1.length := by
    simp [encodedLength, Cbor.encode_of_encodable encodable]
  have identified : idOf name (.map entries) = .ok id := by
    simp [idOf, named]
  have targeted := valid.target_byId id
  rcases found : c.lookup id with _ | current <;> rw [found] at targeted
  · cases upsert
    · simp [replaceOne, sized, targeted, bind, Except.bind, pure, Except.pure]
    · simp [replaceOne, sized, targeted, named, insert, identified, contains_eq_false_of_lookup found, bind,
        Except.bind, pure, Except.pure]
  · have current_id : idOf name current = .ok id := by
      simp [idOf, (valid.stored _ (lookup_eq_some found)).id]
    have kept : keepId id (.map entries) = .ok (.map entries) := by
      simp [keepId, named]
    simp [replaceOne, sized, targeted, current_id, kept, bind, Except.bind, pure, Except.pure]

/-- What a replacement by id of a storable document does to a valid collection. With nothing stored
under the id it inserts the document when upserting and changes nothing otherwise; over a document
stored under the id it puts the new one in its place, unless the two are equal documents. -/
theorem replaceOne_byId_cases {name : String} {c c' : Collection} (valid : c.Valid) {doc : Value} {id : Int64}
    (stored : Stored id doc) {upsert : Bool} {r : ReplaceOutcome} {bytes : Nat}
    (replaced : c.replaceOne name (Filter.byId id) doc upsert = .ok (c', r, bytes)) :
    (c.lookup id = none ∧ (upsert = true ∧ c' = { c with documents := insertByKey id doc c.documents } ∨
        upsert = false ∧ c' = c)) ∨
      ∃ current, c.lookup id = some current ∧ ((current == doc) = true ∧ c' = c ∨
        (current == doc) = false ∧ c' = { c with documents := replaceByKey id doc c.documents }) := by
  obtain ⟨entries, rfl⟩ := stored.isMap
  have sized : encodedLength name (.map entries) = .ok (Cbor.write (.map entries)).1.length := by
    simp [encodedLength, Cbor.encode_of_encodable stored.encodable]
  have targeted := valid.target_byId id
  rcases found : c.lookup id with _ | current <;> rw [found] at targeted
  · refine .inl ⟨rfl, ?_⟩
    cases upsert
    · simp only [replaceOne, sized, targeted, bind, Except.bind, Bool.false_eq_true, if_false, pure, Except.pure,
        Except.ok.injEq, Prod.mk.injEq] at replaced
      exact .inr ⟨rfl, replaced.1.symm⟩
    · have inserted : c.insert name (.map entries) =
          .ok ({ c with documents := insertByKey id (.map entries) c.documents }, id, (Cbor.write (.map entries)).1.length) := by
        simp [insert, sized, idOf, stored.id, contains_eq_false_of_lookup found, bind, Except.bind, pure, Except.pure]
      simp only [replaceOne, sized, targeted, stored.id, inserted, bind, Except.bind, pure, Except.pure, if_true,
        Except.ok.injEq, Prod.mk.injEq] at replaced
      exact .inl ⟨rfl, replaced.1.symm⟩
  · refine .inr ⟨current, rfl, ?_⟩
    have current_id : idOf name current = .ok id := by
      simp [idOf, (valid.stored _ (lookup_eq_some found)).id]
    have kept : keepId id (.map entries) = .ok (.map entries) := by
      simp [keepId, stored.id]
    simp only [replaceOne, sized, targeted, current_id, kept, bind, Except.bind, pure, Except.pure,
      Except.ok.injEq, Prod.mk.injEq] at replaced
    obtain ⟨rfl, -, -⟩ := replaced
    cases current == .map entries <;> simp

end Collection

end Database

end GameVault
