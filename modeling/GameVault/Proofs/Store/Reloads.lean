import Mathlib
import GameVault.Proofs.Store.LiveReads

namespace GameVault

open Database

namespace Database

/-- A stored document names its key, so the id filter admits it exactly under that key. -/
theorem admits_byId_eq {doc : Value} {k id : Int64} (named : doc.get? idField = some (.int k)) :
    (Filter.byId id).admits doc = decide (k = id) := by
  have path : doc.getPath? Filter.idField = doc.get? idField := by
    simp [Value.getPath?, show Filter.idField.splitOn "." = [idField] by cbv]
  simp only [Filter.admits, Filter.byId, Filter.selects, Filter.fieldEquals, path, named, Value.queryEq,
    Value.sameKind, Value.queryCmp]
  by_cases same : k = id
  · subst same
    simp
  · have differ : compare k.toInt id.toInt ≠ .eq := fun equal => same (Int64.toInt_inj.mp (compare_eq_iff_eq.mp equal))
    simp [same, differ]

/-- Among documents in increasing order of key, those under a key are the one found first, if any. -/
theorem filter_key {documents : List (Int64 × Value)}
    (increasing : (documents.map (·.1)).Pairwise fun a b => a.toInt < b.toInt) (id : Int64) :
    (documents.filter fun p => p.1 = id).map (·.2) = ((documents.find? fun p => p.1 = id).map (·.2)).toList := by
  induction documents with
  | nil => rfl
  | cons p rest ih =>
    obtain ⟨k, d⟩ := p
    simp only [List.map_cons, List.pairwise_cons, List.mem_map] at increasing
    by_cases here : k = id
    · subst here
      have later : rest.filter (fun p => p.1 = k) = [] := by
        refine List.filter_eq_nil_iff.mpr fun q member same => ?_
        have larger := increasing.1 q.1 ⟨q, member, rfl⟩
        simp only [decide_eq_true_eq] at same
        rw [same] at larger
        exact lt_irrefl _ larger
      simp [later]
    · simp [here, ih increasing.2]

theorem mem_replaceByKey_self {id : Int64} {doc : Value} {documents : List (Int64 × Value)}
    (present : id ∈ documents.map (·.1)) : (id, doc) ∈ replaceByKey id doc documents := by
  induction documents with
  | nil => simp at present
  | cons q rest ih =>
    obtain ⟨k, d⟩ := q
    unfold replaceByKey
    split_ifs with same
    · simp [same]
    · simp only [List.map_cons, List.mem_cons] at present
      exact List.mem_cons_of_mem _ (ih (present.resolve_left fun here => same here.symm))

namespace Collection

/-- The id filter selects from a valid collection the document stored under the id, and nothing
else. -/
theorem Valid.filter_byId {c : Collection} (valid : c.Valid) (id : Int64) :
    c.values.filter (Filter.byId id).admits = (c.lookup id).toList := by
  have keyed : c.values.filter (Filter.byId id).admits = (c.documents.filter fun p => p.1 = id).map (·.2) := by
    rw [values, List.filter_map]
    congr 1
    refine List.filter_congr fun p member => ?_
    exact admits_byId_eq (valid.stored p member).id
  rw [keyed, filter_key valid.increasing]
  rfl

theorem Valid.lookup_of_mem {c : Collection} (valid : c.Valid) {id : Int64} {doc : Value}
    (member : (id, doc) ∈ c.documents) : c.lookup id = some doc := by
  rcases found : c.lookup id with _ | d
  · simp only [lookup, Option.map_eq_none_iff, List.find?_eq_none] at found
    exact absurd (by simp) (found _ member)
  · have stored := lookup_eq_some found
    have same := valid.id_unique stored member (by rw [(valid.stored _ stored).id, (valid.stored _ member).id])
    simp only [Prod.mk.injEq, true_and] at same
    rw [same]

/-- A replacement by id of a storable document with no double leaves that document under the id,
whenever it upserts or the collection holds the id already. -/
theorem replaceOne_byId_holds {name : String} {c c' : Collection} (valid : c.Valid) {doc : Value} {id : Int64}
    (stored : Stored id doc) (free : doc.FloatFree) {upsert : Bool} {r : ReplaceOutcome} {bytes : Nat}
    (stores : upsert = true ∨ c.contains id = true)
    (replaced : c.replaceOne name (Filter.byId id) doc upsert = .ok (c', r, bytes)) : c'.lookup id = some doc := by
  have valid' := valid_replaceOne valid replaced
  rcases replaceOne_byId_cases valid stored replaced with
    ⟨absent, ⟨-, rfl⟩ | ⟨rfl, -⟩⟩ | ⟨current, atId, ⟨same, rfl⟩ | ⟨-, rfl⟩⟩
  · exact valid'.lookup_of_mem (mem_insertByKey.mpr (.inl rfl))
  · simp [contains_eq_false_of_lookup absent] at stores
  · rw [atId, Value.eq_of_beq free current same]
  · exact valid'.lookup_of_mem (mem_replaceByKey_self (List.mem_map_of_mem (lookup_eq_some atId)))

/-- Without upserting, a replacement by an id the collection holds nothing under leaves the
collection as it was. -/
theorem replaceOne_byId_absent {name : String} {c c' : Collection} {doc : Value} {id : Int64} {r : ReplaceOutcome}
    {bytes : Nat} (absent : c.lookup id = none)
    (replaced : c.replaceOne name (Filter.byId id) doc false = .ok (c', r, bytes)) : c' = c := by
  unfold replaceOne at replaced
  obtain ⟨_, -, replaced⟩ := except_bind_eq_ok.mp replaced
  simp only [target, idHint_byId, absent, Option.filter_none, Bool.false_eq_true, if_false, pure, Except.pure,
    Except.ok.injEq, Prod.mk.injEq] at replaced
  exact replaced.1.symm

end Collection

end Database

/-- An entity read back as it was saved: the same audit record and baseline, the same own fields (a
bag's items in some order), and nothing to save. -/
structure Restored (e e' : Entity) : Prop where
  audit : e'.audit = e.audit
  body : e'.body.Same e.body
  clean : e'.Clean

theorem Body.kind_canonical (b : Body) : b.canonical.kind = b.kind := by
  cases b <;> rfl

theorem Entity.afterLoad_found_body (e : Entity) : (e.afterLoad false).body = e.body := by
  unfold Entity.afterLoad
  dsimp only
  split <;> simp_all

theorem Audit.with_baseline {m : Audit} {b : Option Fingerprint} (same : m.baseline = b) : { m with baseline := b } = m := by
  subst same
  rfl

/-- A consistent entity's document reads back as the entity, its items in key order and no hook
run. -/
theorem hydrate_saved {e : Entity} {doc : Value} (consistent : Consistent e (some doc))
    (documented : e.document = .ok doc) : Store.hydrate e.kind doc = .ok ⟨e.audit, e.body.canonical, {}⟩ := by
  obtain ⟨fingerprint, fingerprinted, tracked⟩ := consistent.tracks
  rw [consistent.document] at documented
  injection documented with documented
  subst documented
  rw [Store.hydrate, fingerprinted]
  simp only [bind, Except.bind, Entity.ofDocument_document consistent.wellFormed consistent.fits, pure, Except.pure,
    Entity.attach]
  rw [Audit.with_baseline tracked]

/-- The entity a consistent entity's document reads back as is clean, whatever its hooks: it has
that very document, whose fingerprint is its baseline. -/
theorem clean_saved {e : Entity} {doc : Value} (consistent : Consistent e (some doc))
    (documented : e.document = .ok doc) (hooks : Hooks) : (⟨e.audit, e.body.canonical, hooks⟩ : Entity).Clean := by
  obtain ⟨fingerprint, fingerprinted, tracked⟩ := consistent.tracks
  have same : (⟨e.audit, e.body.canonical, hooks⟩ : Entity).document = .ok doc := by
    rw [@Entity.document_eq ⟨e.audit, e.body.canonical, hooks⟩ consistent.fits]
    dsimp only
    rw [Body.fields_canonical, ← consistent.document, documented]
  exact Entity.clean_of_baseline same fingerprinted tracked

namespace Database

theorem World.collection_setCollection_self {w : World} {slot : Nat} (inside : slot < w.slots.size) (c : Collection) :
    (w.setCollection slot c).collection slot = c := by
  simp [World.collection, inside]

/-- A replacement through a handle that succeeds replaced the handle's collection by what the
collection's own replacement answered, and counted the write. -/
theorem Handle.replaceOne_eq_ok {w w' : World} {h : Handle} {f : Filter} {doc : Value} {upsert : Bool}
    {r : ReplaceOutcome} (ran : (h.replaceOne f doc upsert).run.run w = (.ok r, w')) :
    ∃ c r' bytes, (w.collection h.slot).replaceOne h.name f doc upsert = .ok (c, r', bytes) ∧
      w' = (w.setCollection h.slot c).modifyConnection h.connection
        fun conn => { conn with counters := conn.counters.write bytes } := by
  by_cases closed : (w.connection h.connection).closed
  · simp [Handle.replaceOne, ensureOpen, closed, ExceptT.run_bind] at ran
    cases ran
  rcases replaced : (w.collection h.slot).replaceOne h.name f doc upsert with err | ⟨c, r', bytes⟩
  · simp [Handle.replaceOne, ensureOpen, closed, Handle.current, replaced, ExceptT.run_bind] at ran
    cases ran
  · rw [run_replaceOne (Bool.not_eq_true _ ▸ closed) replaced] at ran
    injection ran with answer state
    exact ⟨c, r', bytes, rfl, state.symm⟩

end Database

namespace Store

/-- The store has resolved the kind and keeps the handle `h` on its collection. -/
structure Opened (s : Store) (k : Kind) (h : Handle) : Prop where
  owned : s.registry.lookup k.collection = some k
  cached : s.handles.lookup k.collection = some h

theorem run_collection_opened {s : Store} {k : Kind} {h : Handle} (opened : Opened s k h) (w : World) :
    (collection k).run.run (s, w) = (.ok h, (s, w)) := by
  rw [collection, run_bind_ok (run_resolve_owned opened.owned), run_bind_ok (run_get _)]
  simp only [opened.cached]
  rfl

theorem database_keeps_store {α : Type} {op : Op α} {σ σ' : Store × World} {r : Except StoreError α}
    (ran : (database op).run.run σ = (r, σ')) : σ'.1 = σ.1 := by
  obtain ⟨s, w⟩ := σ
  rcases outcome : op.run.run w with ⟨_ | a, w'⟩
  · rw [run_database_error outcome] at ran
    cases ran
    rfl
  · rw [run_database_ok outcome] at ran
    cases ran
    rfl

theorem resolve_eq_ok {σ σ₀ : Store × World} {k : Kind} {name : String} (ran : (resolve k).run.run σ = (.ok name, σ₀)) :
    name = k.collection ∧ σ₀.1.registry.lookup k.collection = some k ∧ σ₀.1.handles = σ.1.handles := by
  obtain ⟨s, w⟩ := σ
  rw [resolve, run_bind_ok (run_get _)] at ran
  dsimp only at ran
  rcases found : s.registry.lookup k.collection with _ | owner <;> simp only [found] at ran
  · split at ran
    · cases ran
    · cases ran
      exact ⟨rfl, registry_lookup_append found, rfl⟩
  · split at ran
    next same =>
      cases ran
      exact ⟨rfl, same ▸ found, rfl⟩
    next => cases ran

/-- Once a kind's collection is opened, the store keeps it open. -/
theorem opened_of_run {σ σ₁ : Store × World} {k : Kind} {h : Handle} (ran : (collection k).run.run σ = (.ok h, σ₁)) :
    Opened σ₁.1 k h := by
  rw [collection] at ran
  obtain ⟨name, σ₀, resolved, ran⟩ := run_bind_eq_ok ran
  obtain ⟨rfl, owned, -⟩ := resolve_eq_ok resolved
  rw [run_bind_ok (run_get _)] at ran
  rcases cached : σ₀.1.handles.lookup k.collection with _ | h' <;> simp only [cached] at ran
  · obtain ⟨σ₂, σ₃, got, ran⟩ := run_bind_eq_ok ran
    rw [run_get] at got
    cases got
    obtain ⟨h', σ₄, opening, ran⟩ := run_bind_eq_ok ran
    obtain ⟨_, σ₅, remembered, ran⟩ := run_bind_eq_ok ran
    cases ran
    cases remembered
    rw [← database_keeps_store opening] at owned cached
    exact ⟨owned, by simp [List.lookup_append, cached, List.lookup]⟩
  · cases ran
    exact ⟨owned, cached⟩

/-- The stored collection a store reads a kind from: the one its handle on the kind's collection,
opened if need be, refers to. -/
def ReadsFrom (σ : Store × World) (k : Kind) (c : Collection) : Prop :=
  ∃ h σ₁, (collection k).run.run σ = (.ok h, σ₁) ∧ h.slot < σ₁.2.slots.size ∧ σ₁.2.collection h.slot = c

theorem ReadsFrom.valid {σ : Store × World} {k : Kind} {c : Collection} (ready : Ready σ k) (reads : ReadsFrom σ k c) :
    c.Valid := by
  obtain ⟨h, σ₁, opening, -, rfl⟩ := reads
  rw [(inert_collection k σ _ σ₁ opening).collections]
  exact ready.valid.collection h.slot

/-- What a store answers for an entity it reads back: a load by the entity's id and a raw find by
its id each give the entity back as it was saved. The load runs the load hook once, for an entity
found; the find runs none. -/
structure ReloadsSaved (τ : Store × World) (e : Entity) : Prop where
  load : ∀ default, ∃ e', ((load e.kind e.id default).run.run τ).1 = .ok e' ∧ Restored e e' ∧
    e'.hooks = { loads := 1, lastIsNew := some false }
  find : ∃ e', ((findIncludingDeleted e.kind (Filter.byId e.id)).run.run τ).1 = .ok [e'] ∧ Restored e e' ∧
    e'.hooks = {}

theorem Entity.afterLoad_found (e : Entity) : e.afterLoad false = ⟨e.audit, e.body, (e.afterLoad false).hooks⟩ := by
  rw [← Entity.afterLoad_found_body e]
  rfl

/-- A ready store that reads a kind from a collection holding an entity's document under its id
reads the entity back as saved. -/
theorem reloads_saved {τ : Store × World} {e : Entity} {c : Collection} {doc : Value}
    (ready : Ready τ e.kind) (testkit : e.kind.logsHooks = true) (reads : ReadsFrom τ e.kind c)
    (consistent : Consistent e (some doc)) (documented : e.document = .ok doc) (held : c.lookup e.id = some doc) :
    ReloadsSaved τ e := by
  have valid := reads.valid ready
  obtain ⟨h, τ₁, handle, -, rfl⟩ := reads
  obtain ⟨h', τ₁', handle', opened, -⟩ := run_collection_open ready testkit
  rw [handle] at handle'
  cases handle'
  have selected : (τ₁.2.collection h.slot).values.filter (Filter.byId e.id).admits = [doc] := by
    rw [valid.filter_byId e.id, held]
    rfl
  have hydrated := hydrate_saved consistent documented
  have logs : (⟨e.audit, e.body.canonical, {}⟩ : Entity).kind.logsHooks = true := by
    rw [Entity.kind, Body.kind_canonical]
    exact testkit
  refine ⟨fun default => ⟨(⟨e.audit, e.body.canonical, {}⟩ : Entity).afterLoad false, ?_, ⟨rfl, ?_, ?_⟩, ?_⟩,
    ⟨⟨e.audit, e.body.canonical, {}⟩, ?_, ⟨rfl, Body.canonical_same _, clean_saved consistent documented {}⟩, rfl⟩⟩
  · rw [load_answer handle opened, selected]
    simp only [List.head?_cons, hydrated]
    rfl
  · rw [Entity.afterLoad_found_body]
    exact Body.canonical_same _
  · rw [Entity.afterLoad_found]
    exact clean_saved consistent documented _
  · simp [Entity.afterLoad, logs]
  · rw [findIncludingDeleted_answer handle opened, selected]
    simp [hydrated, Except.mapError]

/-- Nothing was written: the store counted no write, no connection counted one, and every stored
collection is as it was. -/
structure Unwritten (σ σ' : Store × World) : Prop where
  stats : σ'.1.stats.writes = σ.1.stats.writes
  counters : ∀ i, (σ'.2.connection i).counters.writes = (σ.2.connection i).counters.writes
  collections : ∀ slot, σ'.2.collection slot = σ.2.collection slot

/-- A ready store that reads a kind from a collection holding nothing under an id loads the
caller's default, or a fresh entity, under the id, without a baseline, runs the load hook for a
new entity, and writes nothing. -/
theorem load_absent {τ : Store × World} {k : Kind} {c : Collection} {id : Int64} (default : Option Entity)
    (ready : Ready τ k) (testkit : k.logsHooks = true) (reads : ReadsFrom τ k c) (absent : c.lookup id = none) :
    ∃ τ', (load k id default).run.run τ = (.ok (({ default.getD (Entity.fresh k id) with
        audit := { (default.getD (Entity.fresh k id)).audit with id, baseline := none } } : Entity).afterLoad true), τ') ∧
      Unwritten τ τ' := by
  have valid := reads.valid ready
  obtain ⟨h, ⟨s₁, w₁⟩, handle, -, rfl⟩ := reads
  obtain ⟨h', τ₁', handle', opened, -⟩ := run_collection_open ready testkit
  rw [handle] at handle'
  cases handle'
  have untouched := inert_collection k τ _ _ handle
  have found := run_find opened (Filter.byId id) { limit := some 1 }
  rw [Collection.find_eq, Collection.arrange_first, valid.filter_byId id, absent] at found
  rw [load, run_bind_ok handle, run_bind_ok (run_database_ok found)]
  refine ⟨_, rfl, ?_, fun i => ?_, fun slot => ?_⟩
  · show s₁.stats.writes = τ.1.stats.writes
    rw [show s₁.stats = τ.1.stats from untouched.keeps.stats]
  · have sameConnection : w₁.connection i = τ.2.connection i := by
      unfold World.connection
      rw [show w₁.connections = τ.2.connections from untouched.keeps.connections]
    show ((w₁.modifyConnection h.connection fun conn => { conn with counters := conn.counters.read }).connection i).counters.writes = _
    rw [connection_modifyConnection]
    split_ifs <;> simp [sameConnection, Counters.read]
  · rw [collection_modifyConnection]
    exact untouched.collections slot

theorem database_eq_ok {α : Type} {op : Op α} {s : Store} {w : World} {σ' : Store × World} {a : α}
    (ran : (database op).run.run (s, w) = (.ok a, σ')) : op.run.run w = (.ok a, σ'.2) ∧ σ'.1 = s := by
  rcases outcome : op.run.run w with ⟨_ | b, w'⟩
  · rw [run_database_error outcome] at ran
    cases ran
  · rw [run_database_ok outcome] at ran
    cases ran
    exact ⟨rfl, rfl⟩

/-- Saving from a store that has opened the kind's collection replaces, in that collection, the
document under the entity's id, and keeps the collection open. -/
theorem save_replaces {σ σ' : Store × World} {stamped e' : Entity} {change : ChangeSet} {doc : Value}
    {r : ReplaceOutcome} {h : Handle} (opened : Opened σ.1 stamped.kind h)
    (saved : (save stamped change doc).run.run σ = (.ok (r, e'), σ')) :
    ∃ c' r' bytes, (σ.2.collection h.slot).replaceOne h.name (Filter.byId stamped.id) doc σ.1.config.upsert =
        .ok (c', r', bytes) ∧ Opened σ'.1 stamped.kind h ∧ σ'.2.slots.size = σ.2.slots.size ∧
      (h.slot < σ.2.slots.size → σ'.2.collection h.slot = c') := by
  obtain ⟨s, w⟩ := σ
  obtain ⟨h', σ₁, ⟨s₂, w₂⟩, opening, replaced, rfl, -⟩ := save_runs saved
  rw [run_collection_opened opened w] at opening
  cases opening
  obtain ⟨written, sameStore⟩ := database_eq_ok replaced
  obtain ⟨c', r', bytes, answered, rfl⟩ := Handle.replaceOne_eq_ok written
  dsimp only at sameStore
  subst sameStore
  refine ⟨c', r', bytes, answered, ⟨opened.owned, opened.cached⟩, by simp, fun inside => ?_⟩
  rw [collection_modifyConnection]
  exact World.collection_setCollection_self inside c'

theorem Entity.checkChanges_document {e : Entity} {change : ChangeSet} (checked : e.checkChanges = .ok change) :
    e.document = .ok change.document := by
  unfold Entity.checkChanges at checked
  obtain ⟨doc, documented, rest⟩ := except_bind_eq_ok.mp checked
  obtain ⟨fingerprint, -, rest⟩ := except_bind_eq_ok.mp rest
  cases rest
  exact documented

theorem document_saved {stamped e' : Entity} {change : ChangeSet} {r : ReplaceOutcome}
    (saved : e' = if r.acknowledged then stamped.markSaved change.fingerprint else stamped) :
    e'.document = stamped.document := by
  subst saved
  split
  · exact Entity.document_markSaved _ _
  · rfl

theorem saved_change_document {σ σ' : Store × World} {stamped e' : Entity} {change : ChangeSet} {r : ReplaceOutcome}
    {doc : Value} (checked : stamped.checkChanges = .ok change)
    (saved : (save stamped change change.document).run.run σ = (.ok (r, e'), σ')) (documented : e'.document = .ok doc) :
    doc = change.document := by
  rw [document_saved (save_eq_ok saved), Entity.checkChanges_document checked] at documented
  injection documented with documented
  exact documented.symm

/-- The document an update saves is the document of the entity stamped with the update, whenever
that entity has one. -/
theorem restamped_document {e : Entity} {change : ChangeSet} (checked : e.checkChanges = .ok change) (stamp : Int64)
    {doc : Value} (documented : ({ e with audit := e.audit.markUpdated stamp } : Entity).document = .ok doc) :
    ((change.document.set updateTimeField (.int stamp)).2.set updateCountField
      (.int (if (e.audit.markUpdated stamp).updateCount.toNat ≤ int64Max then (e.audit.markUpdated stamp).updateCount.toInt64
        else Int64.maxValue))).2 = doc := by
  have fits : e.audit.updateCount.toNat ≤ 9223372036854775807 := by
    by_contra overflow
    rw [Entity.checkChanges_of_overflow (Nat.lt_of_not_le overflow)] at checked
    cases checked
  have fits' : (e.audit.updateCount + 1).toNat ≤ 9223372036854775807 := by
    by_contra overflow
    rw [Entity.document_of_overflow (by simpa [Audit.markUpdated] using overflow)] at documented
    cases documented
  have before := Entity.checkChanges_document checked
  rw [Entity.document_eq fits] at before
  injection before with before
  rw [Entity.document_markUpdated stamp fits'] at documented
  injection documented with documented
  have counted : (e.audit.markUpdated stamp).updateCount.toNat ≤ int64Max := fits'
  rw [if_pos counted, ← before, Value.ofPairs, Value.set_stamps stamp _ e.sorted_keys_nodup
    (Entity.mem_sorted_keys (by decide)) (Entity.mem_sorted_keys (by decide)), ← documented]
  rfl

/-- A write of an entity that succeeded: an add, an update that saved, or a delete. -/
inductive Written (σ : Store × World) (e : Entity) (σ' : Store × World) (e' : Entity) : Prop
  | add {n : Nat} : (add e).run.run σ = (.ok (n, e'), σ') → Written σ e σ' e'
  | update : (update e).run.run σ = (.ok (.saved, e'), σ') → Written σ e σ' e'
  | delete {n : Nat} : (delete e).run.run σ = (.ok (n, e'), σ') → Written σ e σ' e'

/-- A write opened the kind's collection, then saved the written entity's document under the
entity's id; whatever it did after that changed neither the store's registry and handles nor the
world. -/
theorem Written.saves {σ σ' : Store × World} {e e' : Entity} {doc : Value} (wrote : Written σ e σ' e')
    (documented : e'.document = .ok doc) :
    ∃ h σ₁ stamped change r σ₂, (collection e.kind).run.run σ = (.ok h, σ₁) ∧ stamped.kind = e.kind ∧
      stamped.id = e.id ∧ (save stamped change doc).run.run σ₁ = (.ok (r, e'), σ₂) ∧
      σ'.1.registry = σ₂.1.registry ∧ σ'.1.handles = σ₂.1.handles ∧ σ'.2 = σ₂.2 := by
  cases wrote with
  | add ran =>
    obtain ⟨h, σ₁, change, r, opening, checked, saved, -⟩ := add_saves ran
    obtain rfl := saved_change_document checked saved documented
    exact ⟨h, σ₁, _, change, r, σ', opening, by rfl, by rfl, saved, rfl, rfl, rfl⟩
  | update ran =>
    obtain ⟨h, σ₁, change, r, opening, checked, -, saved⟩ := update_sends ran (by decide)
    rw [document_saved (save_eq_ok saved)] at documented
    rw [restamped_document checked _ documented] at saved
    exact ⟨h, σ₁, _, change, r, σ', opening, by rfl, by rfl, saved, rfl, rfl, rfl⟩
  | delete ran =>
    obtain ⟨h, σ₁, change, r, σ₂, opening, checked, saved, rfl, -⟩ := delete_saves ran
    obtain rfl := saved_change_document checked saved documented
    exact ⟨h, σ₁, _, change, r, σ₂, opening, by rfl, by rfl, saved, rfl, rfl, rfl⟩

/-- A write replaced, in the collection the store read the kind from, the document under the
entity's id by the written entity's document, and the store reads the kind from the result. -/
theorem Written.replaces {σ σ' : Store × World} {e e' : Entity} {c : Collection} {doc : Value}
    (reads : ReadsFrom σ e.kind c) (wrote : Written σ e σ' e') (documented : e'.document = .ok doc) :
    ∃ name c' r bytes, c.replaceOne name (Filter.byId e.id) doc σ.1.config.upsert = .ok (c', r, bytes) ∧
      ReadsFrom σ' e.kind c' := by
  obtain ⟨h, σ₁, stamped, change, r, σ₂, opening, kind, id, saved, registry, handles, world⟩ := wrote.saves documented
  obtain ⟨h', σ₁', opening', inside, rfl⟩ := reads
  rw [opening] at opening'
  cases opening'
  have opened := opened_of_run opening
  rw [← kind] at opened
  obtain ⟨c', r', bytes, replaced, opened₂, size, slot⟩ := save_replaces opened saved
  have config : σ₁.1.config = σ.1.config := (inert_collection _ σ _ σ₁ opening).keeps.config
  rw [id, config] at replaced
  refine ⟨h.name, c', r', bytes, replaced, h, σ', ?_, ?_, ?_⟩
  · rw [← kind]
    exact run_collection_opened ⟨registry ▸ opened₂.owned, handles ▸ opened₂.cached⟩ σ'.2
  · rw [world, size]
    exact inside
  · rw [world]
    exact slot inside

theorem state_eq_of_runs {α : Type} {x : StoreOp α} {σ σ₁ σ₂ : Store × World} {a b : α}
    (first : x.run.run σ = (.ok a, σ₁)) (second : x.run.run σ = (.ok b, σ₂)) : σ₁ = σ₂ :=
  (Prod.mk.inj (first.symm.trans second)).2

section Written

variable {σ σ' : Store × World} {e e' : Entity} {g : Option Value} {doc : Value}

theorem Written.kind_id (wrote : Written σ e σ' e') (documented : e'.document = .ok doc) :
    e'.kind = e.kind ∧ e'.id = e.id := by
  obtain ⟨-, σ₁, stamped, change, r, σ₂, -, kind, id, saved, -⟩ := wrote.saves documented
  rw [save_eq_ok saved, ← kind, ← id]
  split
  · exact ⟨congrArg Body.kind (Entity.markSaved_body _ _), by simp only [Entity.id, Entity.markSaved_audit]⟩
  · exact ⟨rfl, rfl⟩

theorem Written.held (held : Held e g) (testkit : e.kind.logsHooks = true) (ready : Ready σ e.kind)
    (wrote : Written σ e σ' e') (documented : e'.document = .ok doc) : Held e' (some doc) := by
  cases wrote with
  | add ran => exact .added held testkit ready ran documented
  | update ran => exact .updated held testkit ready ran documented
  | delete ran => exact .deleted held testkit ready ran documented

/-- A write keeps the store ready for the kind. -/
theorem Written.ready (consistent : Consistent e g) (testkit : e.kind.logsHooks = true) (ready : Ready σ e.kind)
    (wrote : Written σ e σ' e') : Ready σ' e.kind := by
  cases wrote with
  | add ran =>
    obtain ⟨fingerprint, n', σ'', -, ran', ready'⟩ := run_add ready testkit consistent.wellFormed consistent.fits
    rw [state_eq_of_runs ran ran']
    exact ready'
  | update ran =>
    rcases update_eq_ok ran with ⟨unchanged, -⟩ | ⟨change, r, checked, dirty, -, -⟩
    · cases unchanged
    obtain ⟨σ'', saved, -, -, ready'⟩ := run_update_saved ready testkit consistent.wellFormed consistent.fits checked dirty
    rw [state_eq_of_runs ran saved]
    exact ready'
  | delete ran =>
    obtain ⟨fingerprint, n', σ'', -, ran', ready'⟩ := run_delete ready testkit consistent.wellFormed consistent.fits
    rw [state_eq_of_runs ran ran']
    exact ready'

/-- An entity a ready store adds has a document. -/
theorem added_documented {n : Nat} (consistent : Consistent e g) (testkit : e.kind.logsHooks = true)
    (ready : Ready σ e.kind) (ran : (add e).run.run σ = (.ok (n, e'), σ')) : ∃ doc, e'.document = .ok doc := by
  obtain ⟨fingerprint, n', σ'', -, ran', -⟩ := run_add ready testkit consistent.wellFormed consistent.fits
  rw [entity_eq_of_runs ran ran', Entity.document_markSaved]
  exact ⟨_, Entity.document_eq consistent.fits⟩

end Written

/-- Writing and reading back. An entity a caller holds, added, updated and saved, or deleted through
a ready store that upserts or whose collection holds the id already, is read back as it was
written: the store then reads the kind from a collection holding the written document, and it,
like every ready store that reads the kind from that collection, loads and finds the entity as
written. An id that the collection a ready store reads from holds nothing under loads as the
caller's default, or a fresh entity, under the id, new, and nothing is written. -/
theorem written_entity_reloads (σ σ' : Store × World) (e e' : Entity) (g : Option Value) (c : Collection)
    (doc : Value) :
    (Held e g → e.kind.logsHooks = true → Ready σ e.kind → ReadsFrom σ e.kind c →
      (σ.1.config.upsert = true ∨ c.contains e.id = true) → Written σ e σ' e' → e'.document = .ok doc →
      ∃ c', ReadsFrom σ' e.kind c' ∧ ReloadsSaved σ' e' ∧
        ∀ τ, Ready τ e.kind → ReadsFrom τ e.kind c' → ReloadsSaved τ e') ∧
    ∀ (τ : Store × World) (k : Kind) (c : Collection) (id : Int64) (default : Option Entity),
      Ready τ k → k.logsHooks = true → ReadsFrom τ k c → c.lookup id = none →
      ∃ τ', (load k id default).run.run τ = (.ok (({ default.getD (Entity.fresh k id) with
          audit := { (default.getD (Entity.fresh k id)).audit with id, baseline := none } } : Entity).afterLoad true), τ') ∧
        Unwritten τ τ' := by
  refine ⟨fun held testkit ready reads stores wrote documented => ?_,
    fun τ k c id default ready testkit reads absent => load_absent default ready testkit reads absent⟩
  obtain ⟨kind, id⟩ := wrote.kind_id documented
  have consistent := (wrote.held held testkit ready documented).consistent
  obtain ⟨name, c', r, bytes, replaced, reads'⟩ := wrote.replaces reads documented
  have written : doc = Value.ofPairs (e'.audit.pairs ++ e'.body.fields) := by
    rw [consistent.document] at documented
    injection documented with documented
    exact documented.symm
  have stored : Stored e.id doc := by
    rw [written, ← id]
    exact Entity.stored_document consistent.wellFormed
  have free : doc.FloatFree := written ▸ Entity.document_floatFree e'
  have held' : c'.lookup e'.id = some doc := by
    rw [id]
    exact Collection.replaceOne_byId_holds (reads.valid ready) stored free stores replaced
  have ready' := wrote.ready held.consistent testkit ready
  rw [← kind] at testkit ready' reads' ⊢
  exact ⟨c', reads', reloads_saved ready' testkit reads' consistent documented held',
    fun τ readyτ readsτ => reloads_saved readyτ testkit readsτ consistent documented held'⟩

end Store

/-- A store over the connected world that has opened the role collection, held empty. -/
def roleOpened (config : StoreConfig) : Store × World :=
  ({ connection := 0, config, registry := [("RoleState", .role)], handles := [("RoleState", ⟨0, 0, "RoleState"⟩)] },
    { connectedWorld with catalogs := [(⟨0, "localhost", "game"⟩, [("RoleState", 0)])], slots := #[{}] })

theorem roleOpened_ready (config : StoreConfig) : Store.Ready (roleOpened config) .role := by
  refine ⟨rfl, rfl, .inr (by simp [roleOpened, Kind.collection]), by simp [roleOpened], fun c member => ?_⟩
  simp only [roleOpened, List.mem_toArray, List.mem_singleton] at member
  subst member
  exact Collection.valid_empty

theorem roleOpened_reads (config : StoreConfig) : Store.ReadsFrom (roleOpened config) .role {} :=
  ⟨⟨0, 0, "RoleState"⟩, _, Store.run_collection_opened ⟨by simp [Kind.collection], by simp [Kind.collection]⟩ _,
    Nat.one_pos, rfl⟩

/-- A role added through a store that has opened the role collection is loaded and found back as
added, and an id the collection holds nothing under loads as a new role. -/
theorem added_role_reloads :
    (∃ n σ' e' doc, (Store.add (Entity.namedRole 1 "a")).run.run (roleOpened {}) = (.ok (n, e'), σ') ∧
      e'.document = .ok doc ∧ Store.ReloadsSaved σ' e') ∧
    ∃ τ', (Store.load .role 2 none).run.run (roleOpened {}) = (.ok (({ Entity.fresh .role 2 with
        audit := { (Entity.fresh .role 2).audit with id := 2, baseline := none } } : Entity).afterLoad true), τ') ∧
      Store.Unwritten (roleOpened {}) τ' := by
  have ready := roleOpened_ready {}
  have held : Held (Entity.namedRole 1 "a") none := .built rfl (by decide) trivial
  obtain ⟨fingerprint, n, σ', -, ran, -⟩ := Store.run_add ready rfl held.consistent.wellFormed held.consistent.fits
  obtain ⟨doc, documented⟩ := Store.added_documented held.consistent rfl ready ran
  obtain ⟨c', -, reloaded, -⟩ := (Store.written_entity_reloads _ _ _ _ none {} doc).1 held rfl ready
    (roleOpened_reads {}) (.inl rfl) (.add ran) documented
  exact ⟨⟨n, σ', _, doc, ran, documented, reloaded⟩,
    (Store.written_entity_reloads (roleOpened {}) σ' (Entity.namedRole 1 "a") (Entity.namedRole 1 "a") none {} doc).2
      _ .role {} 2 none ready rfl (roleOpened_reads {}) rfl⟩

/-- Without upserting, a role added through a store whose role collection is empty is tracked as
saved, with a baseline, yet loading its id gives a new role without one. -/
theorem added_role_without_upsert_unsaved :
    ∃ n σ' e' doc e'' τ', (Store.add (Entity.namedRole 1 "a")).run.run (roleOpened { upsert := false }) =
        (.ok (n, e'), σ') ∧ e'.document = .ok doc ∧ e'.audit.baseline.isSome ∧
      (Store.load .role 1 none).run.run σ' = (.ok e'', τ') ∧ e''.audit.baseline = none := by
  have ready := roleOpened_ready { upsert := false }
  have held : Held (Entity.namedRole 1 "a") none := .built rfl (by decide) trivial
  obtain ⟨fingerprint, n, σ', -, ran, -⟩ := Store.run_add ready rfl held.consistent.wellFormed held.consistent.fits
  obtain ⟨doc, documented⟩ := Store.added_documented held.consistent rfl ready ran
  obtain ⟨name, c', r, bytes, replaced, reads⟩ := (Store.Written.add ran).replaces (roleOpened_reads _) documented
  obtain rfl : c' = {} := Collection.replaceOne_byId_absent rfl replaced
  have ready' := (Store.Written.add ran).ready held.consistent rfl ready
  obtain ⟨τ', loaded, -⟩ := @Store.load_absent _ _ _ 1 none ready' rfl reads rfl
  exact ⟨n, σ', _, doc, _, τ', ran, documented, by simp, loaded, rfl⟩

end GameVault
