import Mathlib
import GameVault.Proofs.Entity.Document
import GameVault.Proofs.Database.Requests
import GameVault.Store.Writes
import GameVault.Store.Reads

namespace GameVault

open Database Value

theorem Kind.collection_allowed {k : Kind} (testkit : k.logsHooks = true) :
    k.collection.isEmpty = false ∧ invalidCollectionName k.collection = false := by
  cases k <;> simp [Kind.logsHooks] at testkit <;> constructor <;> cbv

namespace Store

/-- What a store needs to write an entity of kind `k`: its connection is open and acknowledges writes,
no other kind owns the kind's collection, every handle it keeps is on its own connection, and every
stored collection keeps its representation invariant. -/
structure Ready (σ : Store × World) (k : Kind) : Prop where
  connected : (σ.2.connection σ.1.connection).closed = false
  acknowledged : (σ.2.connection σ.1.connection).acknowledged = true
  owner : σ.1.registry.lookup k.collection = none ∨ σ.1.registry.lookup k.collection = some k
  handles : ∀ p ∈ σ.1.handles, p.2.connection = σ.1.connection
  valid : σ.2.Valid

/-- A store over a connection just made to an address that acknowledges writes is ready for every
kind: the new connection is open, the store owns no collection and keeps no handle, and connecting
leaves the stored collections alone. -/
theorem ready_connect {w w' : World} {server conn : Nat} {cs database : String} {address : Address}
    (valid : w.Valid) (parsed : Address.parse cs = .ok address) (acknowledged : address.acknowledged = true)
    (connected : w.connect server cs database = .ok (conn, w')) (config : StoreConfig) (k : Kind) :
    Ready ({ connection := conn, config }, w') k := by
  unfold World.connect at connected
  rw [parsed] at connected
  cases named : checkDatabaseName database with
  | error _ => simp [named, bind, Except.bind] at connected
  | ok _ =>
    simp only [named, bind, Except.bind, pure, Except.pure, Except.ok.injEq, Prod.mk.injEq] at connected
    obtain ⟨rfl, rfl⟩ := connected
    have slots : (if w.catalogs.any (·.1 = ⟨server, address.host, database⟩) then w
        else w.setCatalog ⟨server, address.host, database⟩ []).slots = w.slots := by
      split_ifs <;> simp
    refine ⟨?_, ?_, .inl rfl, by simp, ?_⟩
    · simp [World.connection]
    · simp [World.connection, acknowledged]
    · intro c member
      exact valid c (by simpa [slots] using member)

/-- What resolving and opening a collection leaves alone: the store's connection, configuration and
counters, the clock, and every connection of the world. -/
structure Keeps (σ σ' : Store × World) : Prop where
  connection : σ'.1.connection = σ.1.connection
  config : σ'.1.config = σ.1.config
  stats : σ'.1.stats = σ.1.stats
  clock : σ'.2.clock = σ.2.clock
  connections : σ'.2.connections = σ.2.connections

theorem run_bind_ok {α β : Type} {x : StoreOp α} {f : α → StoreOp β} {σ σ' : Store × World} {a : α}
    (first : x.run.run σ = (.ok a, σ')) : (x >>= f).run.run σ = (f a).run.run σ' := by
  simp only [ExceptT.run_bind, StateT.run_bind, first]
  rfl

theorem run_bind_error {α β : Type} {x : StoreOp α} {f : α → StoreOp β} {σ σ' : Store × World}
    {e : StoreError} (first : x.run.run σ = (.error e, σ')) : (x >>= f).run.run σ = (.error e, σ') := by
  simp only [ExceptT.run_bind, StateT.run_bind, first]
  rfl

theorem run_get (σ : Store × World) : (get : StoreOp (Store × World)).run.run σ = (.ok σ, σ) := rfl

theorem run_database_ok {α : Type} {op : Op α} {s : Store} {w w' : World} {a : α}
    (ran : op.run.run w = (.ok a, w')) : (database op).run.run (s, w) = (.ok a, (s, w')) := by
  rw [database, run_bind_ok (run_get _)]
  simp only [ran]
  rfl

theorem run_tally (f : StoreStats → StoreStats) (s : Store) (w : World) :
    (tally f).run.run (s, w) = (.ok (), ({ s with stats := f s.stats }, w)) := rfl

theorem run_codec_ok {α : Type} {r : Except CodecError α} {a : α} (ok : r = .ok a) (σ : Store × World) :
    (codec r).run.run σ = (.ok a, σ) := by
  rw [ok]
  rfl

theorem run_codec_error {α : Type} {r : Except CodecError α} {err : CodecError} (failed : r = .error err)
    (σ : Store × World) : (codec r).run.run σ = (.error (.codec err), σ) := by
  rw [failed]
  rfl

theorem run_now (σ : Store × World) : now.run.run σ = (.ok σ.2.clock, σ) := rfl

theorem run_resolve_owned {s : Store} {w : World} {k : Kind} (owned : s.registry.lookup k.collection = some k) :
    (resolve k).run.run (s, w) = (.ok k.collection, (s, w)) := by
  rw [resolve, run_bind_ok (run_get _)]
  simp only [owned, if_true]
  rfl

theorem run_resolve_new {s : Store} {w : World} {k : Kind} (unowned : s.registry.lookup k.collection = none)
    (named : k.collection.isEmpty = false) :
    (resolve k).run.run (s, w) = (.ok k.collection, ({ s with registry := s.registry ++ [(k.collection, k)] }, w)) := by
  rw [resolve, run_bind_ok (run_get _)]
  simp only [unowned, named, Bool.false_eq_true, if_false]
  rfl

theorem registry_lookup_append {registry : List (String × Kind)} {name : String} {k : Kind}
    (absent : registry.lookup name = none) : (registry ++ [(name, k)]).lookup name = some k := by
  simp [List.lookup_append, absent, List.lookup]

/-- From a ready store, the collection of a testkit kind resolves and opens, on the store's own
connection, and leaves the store ready. -/
theorem run_collection {σ : Store × World} {k : Kind} (ready : Ready σ k) (testkit : k.logsHooks = true) :
    ∃ h σ', (collection k).run.run σ = (.ok h, σ') ∧ h.connection = σ.1.connection ∧ Ready σ' k ∧ Keeps σ σ' := by
  obtain ⟨s, w⟩ := σ
  obtain ⟨named, allowed⟩ := Kind.collection_allowed testkit
  obtain ⟨s₁, resolved, owned, sameHandles, sameConnection, sameConfig, sameStats⟩ :
      ∃ s₁ : Store, (resolve k).run.run (s, w) = (.ok k.collection, (s₁, w)) ∧
        s₁.registry.lookup k.collection = some k ∧ s₁.handles = s.handles ∧ s₁.connection = s.connection ∧
        s₁.config = s.config ∧ s₁.stats = s.stats := by
    rcases ready.owner with unowned | owned
    · exact ⟨_, run_resolve_new unowned named, registry_lookup_append unowned, rfl, rfl, rfl, rfl⟩
    · exact ⟨s, run_resolve_owned owned, owned, rfl, rfl, rfl, rfl⟩
  have kept : Ready (s₁, w) k :=
    ⟨sameConnection ▸ ready.connected, sameConnection ▸ ready.acknowledged, .inr owned,
      sameHandles ▸ sameConnection ▸ ready.handles, ready.valid⟩
  rcases cached : s₁.handles.lookup k.collection with _ | h
  · obtain ⟨slot, w', opened, sameConnections, sameClock, valid⟩ :=
      Database.run_openCollection kept.connected allowed
    have same : ∀ i, w'.connection i = w.connection i := fun i => by
      unfold World.connection
      rw [sameConnections]
    refine ⟨⟨s₁.connection, slot, k.collection⟩,
      ({ s₁ with handles := s₁.handles ++ [(k.collection, ⟨s₁.connection, slot, k.collection⟩)] }, w'),
      ?_, sameConnection, ?_, ⟨sameConnection, sameConfig, sameStats, sameClock, sameConnections⟩⟩
    · rw [collection, run_bind_ok resolved, run_bind_ok (run_get _)]
      simp only [cached]
      rw [run_bind_ok (run_get _), run_bind_ok (run_database_ok opened)]
      rfl
    · refine ⟨by simpa [same] using kept.connected, by simpa [same] using kept.acknowledged, .inr owned, ?_,
        valid ready.valid⟩
      intro p member
      rcases List.mem_append.mp member with old | added
      · exact kept.handles p old
      · rw [List.mem_singleton.mp added]
  · have member : (k.collection, h) ∈ s₁.handles := by
      obtain ⟨before, after, split, -⟩ := List.lookup_eq_some_iff.mp cached
      rw [split]
      simp
    refine ⟨h, (s₁, w), ?_, (kept.handles _ member).trans sameConnection, kept,
      ⟨sameConnection, sameConfig, sameStats, rfl, rfl⟩⟩
    rw [collection, run_bind_ok resolved, run_bind_ok (run_get _)]
    simp only [cached]
    rfl

/-- Saving from a ready store writes the document once, acknowledged, counts the write in the store
and on its connection, and marks the entity saved; the store stays ready. -/
theorem run_save {σ : Store × World} {stamped : Entity} {change : ChangeSet} {doc : Value}
    (ready : Ready σ stamped.kind) (testkit : stamped.kind.logsHooks = true) (stored : Stored stamped.id doc) :
    ∃ σ' r, (save stamped change doc).run.run σ = (.ok (r, stamped.markSaved change.fingerprint), σ') ∧
      r.acknowledged = true ∧ σ'.1.stats = { σ.1.stats with writes := σ.1.stats.writes + 1 } ∧
      (σ'.2.connection σ.1.connection).counters.writes = (σ.2.connection σ.1.connection).counters.writes + 1 ∧
      Ready σ' stamped.kind := by
  obtain ⟨h, ⟨s₁, w₁⟩, opened, onConnection, ready₁, keeps⟩ := run_collection ready testkit
  have sameConnection : h.connection = s₁.connection := onConnection.trans keeps.connection.symm
  obtain ⟨c, r, bytes, replaced, acknowledged⟩ :=
    @Collection.replaceOne_byId_ok h.name _ (ready₁.valid.collection h.slot) _ _ stored.isMap stored.encodable
      stored.id s₁.config.upsert
  have connectionAcknowledged : (w₁.connection h.connection).acknowledged = true :=
    sameConnection ▸ ready₁.acknowledged
  have written := Database.run_replaceOne (sameConnection ▸ ready₁.connected) replaced
  rw [connectionAcknowledged, if_pos rfl] at written
  refine ⟨({ s₁ with stats := { s₁.stats with writes := s₁.stats.writes + 1 } },
    (w₁.setCollection h.slot c).modifyConnection h.connection
      fun conn => { conn with counters := conn.counters.write bytes }), r, ?_, acknowledged, ?_, ?_, ?_⟩
  · rw [save, run_bind_ok opened, run_bind_ok (run_get _), run_bind_ok (run_database_ok written),
      run_bind_ok (run_tally _ _ _)]
    simp only [acknowledged, if_true]
    rfl
  · rw [keeps.stats]
  · have same : (w₁.connection h.connection).counters = (σ.2.connection h.connection).counters := by
      unfold World.connection
      rw [keeps.connections]
    rw [← onConnection, connection_after_write connectionAcknowledged]
    simp [Counters.write, same]
  · have valid := ready₁.valid.replaceOne h (Filter.byId stamped.id) doc s₁.config.upsert
    rw [after, written] at valid
    refine ⟨?_, ?_, ready₁.owner, ready₁.handles, valid⟩
    · simpa [← sameConnection, connection_after_write connectionAcknowledged] using sameConnection ▸ ready₁.connected
    · simpa [← sameConnection, connection_after_write connectionAcknowledged] using connectionAcknowledged

theorem run_update_unchanged {e : Entity} {change : ChangeSet} (checked : e.checkChanges = .ok change)
    (clean : change.changed = false) (σ : Store × World) :
    (update e).run.run σ = (.ok (.unchanged, e),
      ({ σ.1 with stats := { σ.1.stats with skippedUpdates := σ.1.stats.skippedUpdates + 1 } }, σ.2)) := by
  rw [update, run_bind_ok (run_codec_ok checked σ)]
  simp only [clean]
  rfl

theorem run_update_unchecked {e : Entity} {err : CodecError} (failed : e.checkChanges = .error err)
    (σ : Store × World) : (update e).run.run σ = (.error (.codec err), σ) := by
  rw [update, run_bind_error (run_codec_error failed σ)]

/-- An update of a changed entity from a ready store saves it with the update stamped in: one write,
counted in the store and on its connection, and the store stays ready. -/
theorem run_update_saved {e : Entity} {σ : Store × World} (ready : Ready σ e.kind) (testkit : e.kind.logsHooks = true)
    (wf : e.body.WellFormed) (fits : e.audit.updateCount.toNat ≤ 9223372036854775807) {change : ChangeSet}
    (checked : e.checkChanges = .ok change) (dirty : change.changed = true) :
    ∃ σ', (update e).run.run σ =
        (.ok (.saved, ({ e with audit := e.audit.markUpdated (e.audit.nextUpdateStamp σ.2.clock) } : Entity).markSaved
          change.fingerprint), σ') ∧
      σ'.1.stats = { σ.1.stats with writes := σ.1.stats.writes + 1 } ∧
      (σ'.2.connection σ.1.connection).counters.writes = (σ.2.connection σ.1.connection).counters.writes + 1 ∧
      Ready σ' e.kind := by
  obtain ⟨h, σ₁, opened, -, ready₁, keeps⟩ := run_collection ready testkit
  have documented : change.document = Value.ofPairs (e.audit.pairs ++ e.body.fields) := by
    obtain ⟨_, checked', documented, -⟩ := Entity.checkChanges_ok wf fits
    rw [checked] at checked'
    cases checked'
    exact documented
  have hasTime : Value.text updateTimeField ∈ (sortEntries (e.audit.pairs ++ e.body.fields)).map (·.1) :=
    Entity.mem_sorted_keys (by decide)
  have hasCount : Value.text updateCountField ∈ (sortEntries (e.audit.pairs ++ e.body.fields)).map (·.1) :=
    Entity.mem_sorted_keys (by decide)
  let stamp := e.audit.nextUpdateStamp σ₁.2.clock
  let stamped : Entity := { e with audit := e.audit.markUpdated stamp }
  let count := if stamped.audit.updateCount.toNat ≤ int64Max then stamped.audit.updateCount.toInt64
    else Int64.maxValue
  have stored : Stored stamped.id
      ((change.document.set updateTimeField (.int stamp)).2.set updateCountField (.int count)).2 := by
    rw [documented, Value.ofPairs, Value.set_stamps stamp count e.sorted_keys_nodup hasTime hasCount]
    exact e.stored_restamped wf stamp count
  obtain ⟨σ', r, saved, acknowledged, stats, driver, ready'⟩ := @run_save σ₁ stamped change _ ready₁ testkit stored
  refine ⟨σ', ?_, ?_, ?_, ready'⟩
  · rw [update, run_bind_ok (run_codec_ok checked σ)]
    simp only [dirty, Bool.not_true, Bool.false_eq_true, if_false]
    rw [run_bind_ok opened, run_bind_ok (run_now _), run_bind_ok saved, ← keeps.clock]
    simp only [acknowledged, if_true]
    rfl
  · rw [stats, keeps.stats]
  · rw [← keeps.connection, driver]
    unfold World.connection
    rw [keeps.connections]

/-- Adding from a ready store succeeds: the entity, stamped with its creation, is saved and marked
saved with the fingerprint of its new document. -/
theorem run_add {e : Entity} {σ : Store × World} (ready : Ready σ e.kind) (testkit : e.kind.logsHooks = true)
    (wf : e.body.WellFormed) (fits : e.audit.updateCount.toNat ≤ 9223372036854775807) :
    let stamped : Entity := { e with audit := e.audit.markCreated (e.audit.nextStamp σ.2.clock) }
    ∃ fingerprint n σ', Fingerprint.of (Value.ofPairs (stamped.audit.pairs ++ stamped.body.fields)) = .ok fingerprint ∧
      (add e).run.run σ = (.ok (n, stamped.markSaved fingerprint), σ') ∧ Ready σ' e.kind := by
  obtain ⟨h, σ₁, opened, -, ready₁, keeps⟩ := run_collection ready testkit
  rw [← keeps.clock]
  intro stamped
  obtain ⟨change, checked, documented, fingerprinted⟩ := @Entity.checkChanges_ok stamped wf fits
  obtain ⟨σ', r, saved, -, -, -, ready'⟩ :=
    @run_save σ₁ stamped change _ ready₁ testkit (documented ▸ stamped.stored_document wf)
  refine ⟨_, r.written, σ', documented ▸ fingerprinted, ?_, ready'⟩
  rw [add, run_bind_ok opened, run_bind_ok (run_now _), run_bind_ok (run_codec_ok checked _)]
  dsimp only
  rw [run_bind_ok saved]
  rfl

/-- Deleting from a ready store succeeds: the entity, stamped with its deletion and marked deleted,
is saved and marked saved with the fingerprint of its new document. -/
theorem run_delete {e : Entity} {σ : Store × World} (ready : Ready σ e.kind) (testkit : e.kind.logsHooks = true)
    (wf : e.body.WellFormed) (fits : e.audit.updateCount.toNat ≤ 9223372036854775807) :
    let stamped : Entity := { e with audit := e.audit.markDeleted (e.audit.nextDeleteStamp σ.2.clock) }
    ∃ fingerprint n σ', Fingerprint.of (Value.ofPairs (stamped.audit.pairs ++ stamped.body.fields)) = .ok fingerprint ∧
      (delete e).run.run σ = (.ok (n, stamped.markSaved fingerprint), σ') ∧ Ready σ' e.kind := by
  obtain ⟨h, σ₁, opened, -, ready₁, keeps⟩ := run_collection ready testkit
  rw [← keeps.clock]
  intro stamped
  obtain ⟨change, checked, documented, fingerprinted⟩ := @Entity.checkChanges_ok stamped wf fits
  obtain ⟨σ', r, saved, -, -, -, ready'⟩ :=
    @run_save σ₁ stamped change _ ready₁ testkit (documented ▸ stamped.stored_document wf)
  refine ⟨_, r.written, ({ σ'.1 with stats := { σ'.1.stats with softDeletes := σ'.1.stats.softDeletes + 1 } }, σ'.2),
    documented ▸ fingerprinted, ?_, ⟨ready'.connected, ready'.acknowledged, ready'.owner, ready'.handles, ready'.valid⟩⟩
  rw [delete, run_bind_ok opened, run_bind_ok (run_now _), run_bind_ok (run_codec_ok checked _)]
  dsimp only
  rw [run_bind_ok saved, run_bind_ok (run_tally _ _ _)]
  rfl

theorem codec_of_run {α : Type} {r : Except CodecError α} {σ σ' : Store × World} {a : α}
    (ran : (codec r).run.run σ = (.ok a, σ')) : r = .ok a := by
  cases r with
  | error e => cases ran
  | ok b => cases ran; rfl

theorem run_bind_eq_ok {α β : Type} {x : StoreOp α} {f : α → StoreOp β} {σ σ'' : Store × World} {b : β}
    (ran : (x >>= f).run.run σ = (.ok b, σ'')) : ∃ a σ', x.run.run σ = (.ok a, σ') ∧ (f a).run.run σ' = (.ok b, σ'') := by
  rcases first : x.run.run σ with ⟨_ | a, σ'⟩
  · rw [run_bind_error first] at ran
    cases ran
  · exact ⟨a, σ', rfl, (run_bind_ok first).symm.trans ran⟩

theorem now_eq_ok {σ σ' : Store × World} {t : Int64} (ran : now.run.run σ = (.ok t, σ')) : t = σ.2.clock ∧ σ' = σ := by
  rw [run_now] at ran
  injection ran with clock state
  injection clock with clock
  exact ⟨clock.symm, state.symm⟩

theorem pure_eq_ok {α : Type} {a b : α} {σ σ' : Store × World} (ran : (pure a : StoreOp α).run.run σ = (.ok b, σ')) :
    b = a ∧ σ' = σ := by
  injection ran with result state
  injection result with result
  exact ⟨result.symm, state.symm⟩

theorem hydrate_eq_ok {k : Kind} {doc : Value} {e : Entity} (hydrated : hydrate k doc = .ok e) :
    ∃ fingerprint read, Fingerprint.of doc = .ok fingerprint ∧ Entity.ofDocument k doc = .ok read ∧
      e = read.attach (some fingerprint) := by
  obtain ⟨fingerprint, fingerprinted, rest⟩ := except_bind_eq_ok.mp hydrated
  obtain ⟨read, readOk, rest⟩ := except_bind_eq_ok.mp rest
  exact ⟨fingerprint, read, fingerprinted, readOk, (Except.ok.inj rest).symm⟩

theorem mapM_hydrate {k : Kind} {docs : List Value} {entities : List Entity}
    (hydrated : docs.mapM (hydrate k) = .ok entities) : ∀ e ∈ entities, ∃ doc ∈ docs, hydrate k doc = .ok e := by
  induction docs generalizing entities with
  | nil =>
    simp only [List.mapM_nil, pure, Except.pure, Except.ok.injEq] at hydrated
    simp [← hydrated]
  | cons doc rest ih =>
    rw [List.mapM_cons] at hydrated
    obtain ⟨first, firstOk, hydrated⟩ := except_bind_eq_ok.mp hydrated
    obtain ⟨others, othersOk, hydrated⟩ := except_bind_eq_ok.mp hydrated
    cases hydrated
    intro e member
    rcases List.mem_cons.mp member with rfl | later
    · exact ⟨doc, List.mem_cons_self .., firstOk⟩
    · obtain ⟨d, found, ok⟩ := ih othersOk e later
      exact ⟨d, List.mem_cons_of_mem _ found, ok⟩

/-- Every entity a find returns is read from a document. -/
theorem findEntities_read {k : Kind} {f : Filter} {o : FindOptions} {σ σ' : Store × World} {entities : List Entity}
    (ran : (findEntities k f o).run.run σ = (.ok entities, σ')) : ∀ e ∈ entities, ∃ doc, hydrate k doc = .ok e := by
  rw [findEntities] at ran
  obtain ⟨h, σ₁, -, ran⟩ := run_bind_eq_ok ran
  obtain ⟨docs, σ₂, -, ran⟩ := run_bind_eq_ok ran
  obtain ⟨found, σ₃, hydrated, ran⟩ := run_bind_eq_ok ran
  obtain ⟨_, σ₄, -, ran⟩ := run_bind_eq_ok ran
  obtain ⟨rfl, -⟩ := pure_eq_ok ran
  intro e member
  obtain ⟨doc, -, read⟩ := mapM_hydrate (codec_of_run hydrated) e member
  exact ⟨doc, read⟩

/-- A load answers, with the load hook run, the entity read from the document stored under the id,
or else the default (a fresh entity if none) under the id and without a baseline. -/
theorem load_read {k : Kind} {id : Int64} {default : Option Entity} {σ σ' : Store × World} {e : Entity}
    (ran : (load k id default).run.run σ = (.ok e, σ')) :
    (∃ doc read, hydrate k doc = .ok read ∧ e = read.afterLoad false) ∨
      e = ({ default.getD (Entity.fresh k id) with
        audit := { (default.getD (Entity.fresh k id)).audit with id, baseline := none } } : Entity).afterLoad true := by
  rw [load] at ran
  obtain ⟨h, σ₁, -, ran⟩ := run_bind_eq_ok ran
  obtain ⟨found, σ₂, -, ran⟩ := run_bind_eq_ok ran
  have hooked : ∀ {read : Entity} {isNew : Bool} {σ₃ : Store × World},
      ((tally fun s => { s with loads := s.loads + 1 }) >>= fun _ => (pure (read.afterLoad isNew) : StoreOp Entity)).run.run σ₃ =
        (.ok e, σ') → e = read.afterLoad isNew := by
    intro read isNew σ₃ ran
    obtain ⟨_, σ₄, -, ran⟩ := run_bind_eq_ok ran
    exact (pure_eq_ok ran).1
  cases found with
  | cons doc rest =>
    dsimp only at ran
    obtain ⟨read, σ₃, decoded, ran⟩ := run_bind_eq_ok ran
    obtain ⟨_, σ₄, pair, ran⟩ := run_bind_eq_ok ran
    obtain ⟨rfl, -⟩ := pure_eq_ok pair
    exact .inl ⟨doc, read, codec_of_run decoded, hooked ran⟩
  | nil =>
    dsimp only at ran
    obtain ⟨_, σ₃, pair, ran⟩ := run_bind_eq_ok ran
    obtain ⟨rfl, -⟩ := pure_eq_ok pair
    exact .inr (hooked ran)

end Store

end GameVault
