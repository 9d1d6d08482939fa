import Mathlib
import GameVault.Proofs.Store.Reloads

namespace GameVault

open Database

namespace Database

theorem find?_insertByKey_of_ne {id k : Int64} {doc : Value} (other : k ≠ id) (documents : List (Int64 × Value)) :
    (insertByKey id doc documents).find? (·.1 = k) = documents.find? (·.1 = k) := by
  induction documents with
  | nil => simp [insertByKey, Ne.symm other]
  | cons q rest ih =>
    obtain ⟨k', d⟩ := q
    unfold insertByKey
    split_ifs <;> simp [List.find?_cons, ih, Ne.symm other]

/-- Replacing under one key leaves what is found under any other. -/
theorem find?_replaceByKey_of_ne {id k : Int64} {doc : Value} (other : k ≠ id) (documents : List (Int64 × Value)) :
    (replaceByKey id doc documents).find? (·.1 = k) = documents.find? (·.1 = k) := by
  induction documents with
  | nil => rfl
  | cons q rest ih =>
    obtain ⟨k', d⟩ := q
    unfold replaceByKey
    split_ifs with same
    · subst same
      simp [Ne.symm other]
    · simp [List.find?_cons, ih]

namespace Collection

/-- A replacement by id of a storable document inserts it, puts it in place of the document under
the id, or leaves the collection as it was. -/
theorem replaceOne_byId_documents {name : String} {c c' : Collection} (valid : c.Valid) {doc : Value} {id : Int64}
    (stored : Stored id doc) {upsert : Bool} {r : ReplaceOutcome} {bytes : Nat}
    (replaced : c.replaceOne name (Filter.byId id) doc upsert = .ok (c', r, bytes)) :
    c'.documents = insertByKey id doc c.documents ∨ c'.documents = replaceByKey id doc c.documents ∨ c' = c := by
  rcases replaceOne_byId_cases valid stored replaced with
    ⟨-, ⟨-, rfl⟩ | ⟨-, rfl⟩⟩ | ⟨current, -, ⟨-, rfl⟩ | ⟨-, rfl⟩⟩
  · exact .inl rfl
  · exact .inr (.inr rfl)
  · exact .inr (.inr rfl)
  · exact .inr (.inl rfl)

/-- A replacement by id of a storable document with no double, when it upserts or the collection
holds the id already, leaves that document under the id and every other id as it was. -/
theorem lookup_replaceOne_byId {name : String} {c c' : Collection} (valid : c.Valid) {doc : Value} {id : Int64}
    (stored : Stored id doc) (free : doc.FloatFree) {upsert : Bool} {r : ReplaceOutcome} {bytes : Nat}
    (stores : upsert = true ∨ c.contains id = true)
    (replaced : c.replaceOne name (Filter.byId id) doc upsert = .ok (c', r, bytes)) (k : Int64) :
    c'.lookup k = if k = id then some doc else c.lookup k := by
  split_ifs with same
  · rw [same]
    exact replaceOne_byId_holds valid stored free stores replaced
  · unfold lookup
    rcases replaceOne_byId_documents valid stored replaced with inserted | put | rfl
    · rw [inserted, find?_insertByKey_of_ne same]
    · rw [put, find?_replaceByKey_of_ne same]
    · rfl

theorem contains_of_lookup {c : Collection} {id : Int64} {doc : Value} (found : c.lookup id = some doc) :
    c.contains id = true :=
  List.any_eq_true.mpr ⟨_, lookup_eq_some found, by simp⟩

end Collection

end Database

namespace Store

/-- What no store call changes: the store's configuration and the world's clock. -/
structure Fixed (σ σ' : Store × World) : Prop where
  config : σ'.1.config = σ.1.config
  clock : σ'.2.clock = σ.2.clock

theorem Fixed.trans {σ σ' σ'' : Store × World} (first : Fixed σ σ') (second : Fixed σ' σ'') : Fixed σ σ'' :=
  ⟨second.config.trans first.config, second.clock.trans first.clock⟩

theorem Keeps.fixed {σ σ' : Store × World} (keeps : Keeps σ σ') : Fixed σ σ' := ⟨keeps.config, keeps.clock⟩

/-- A save that succeeds keeps the configuration and the clock. -/
theorem save_fixed {stamped e' : Entity} {change : ChangeSet} {doc : Value} {σ σ' : Store × World}
    {r : ReplaceOutcome} (saved : (save stamped change doc).run.run σ = (.ok (r, e'), σ')) : Fixed σ σ' := by
  obtain ⟨h, ⟨s₁, w₁⟩, ⟨s₂, w₂⟩, opening, replaced, rfl, -⟩ := save_runs saved
  have keeps := (inert_collection _ σ _ _ opening).keeps
  obtain ⟨written, sameStore⟩ := database_eq_ok replaced
  obtain ⟨c', r', bytes, -, world⟩ := Handle.replaceOne_eq_ok written
  dsimp only at sameStore world
  subst sameStore world
  exact keeps.fixed.trans ⟨rfl, rfl⟩

section Written

variable {σ σ' : Store × World} {e e' : Entity} {g : Option Value} {doc : Value}

/-- A write that succeeded keeps the configuration and the clock. -/
theorem Written.fixed (wrote : Written σ e σ' e') : Fixed σ σ' := by
  cases wrote with
  | add ran =>
    obtain ⟨h, σ₁, change, r, opening, -, saved, -⟩ := add_saves ran
    exact (inert_collection _ σ _ σ₁ opening).keeps.fixed.trans (save_fixed saved)
  | update ran =>
    obtain ⟨h, σ₁, change, r, opening, -, -, saved⟩ := update_sends ran (by decide)
    exact (inert_collection _ σ _ σ₁ opening).keeps.fixed.trans (save_fixed saved)
  | delete ran =>
    obtain ⟨h, σ₁, change, r, σ₂, opening, -, saved, rfl, -⟩ := delete_saves ran
    exact ((inert_collection _ σ _ σ₁ opening).keeps.fixed.trans (save_fixed saved)).trans ⟨rfl, rfl⟩

theorem Written.opened (wrote : Written σ e σ' e') (documented : e'.document = .ok doc) :
    ∃ h, Opened σ'.1 e.kind h := by
  obtain ⟨h, σ₁, stamped, change, r, σ₂, opening, kind, -, saved, registry, handles, -⟩ := wrote.saves documented
  have opened := opened_of_run opening
  rw [← kind] at opened
  obtain ⟨-, -, -, -, opened₂, -⟩ := save_replaces opened saved
  rw [kind] at opened₂
  exact ⟨h, registry ▸ opened₂.owned, handles ▸ opened₂.cached⟩

/-- A write that succeeded leaves the written entity consistent with its document. -/
theorem Written.consistent (consistent : Consistent e g) (testkit : e.kind.logsHooks = true) (ready : Ready σ e.kind)
    (wrote : Written σ e σ' e') (documented : e'.document = .ok doc) : Consistent e' (some doc) := by
  cases wrote with
  | add ran => exact consistent.add testkit ready ran documented
  | update ran => exact consistent.update testkit ready ran documented
  | delete ran => exact consistent.delete testkit ready ran documented

/-- A write that succeeded from a ready store, of an entity consistent with its last document, when
the store upserts or the collection holds the entity's id already: the store then reads the kind
from a collection that holds the written document under the entity's id and, under every other id,
what it held before; it stays ready, keeps the collection open, its configuration and the clock. -/
theorem Written.stores {c : Collection} (consistent : Consistent e g) (testkit : e.kind.logsHooks = true)
    (ready : Ready σ e.kind) (reads : ReadsFrom σ e.kind c) (stores : σ.1.config.upsert = true ∨ c.contains e.id = true)
    (wrote : Written σ e σ' e') (documented : e'.document = .ok doc) :
    ∃ c', ReadsFrom σ' e.kind c' ∧ (∀ k, c'.lookup k = if k = e.id then some doc else c.lookup k) ∧
      Ready σ' e.kind ∧ (∃ h, Opened σ'.1 e.kind h) ∧ Fixed σ σ' ∧ Consistent e' (some doc) := by
  obtain ⟨-, id⟩ := wrote.kind_id documented
  have consistent' := wrote.consistent consistent testkit ready documented
  obtain ⟨name, c', r, bytes, replaced, reads'⟩ := wrote.replaces reads documented
  have written : doc = Value.ofPairs (e'.audit.pairs ++ e'.body.fields) := by
    rw [consistent'.document] at documented
    injection documented with documented
    exact documented.symm
  have stored : Stored e.id doc := by
    rw [written, ← id]
    exact Entity.stored_document consistent'.wellFormed
  have free : doc.FloatFree := written ▸ Entity.document_floatFree e'
  exact ⟨c', reads', Collection.lookup_replaceOne_byId (reads.valid ready) stored free stores replaced,
    wrote.ready consistent testkit ready, wrote.opened documented, wrote.fixed, consistent'⟩

end Written

/-- Counting on a connection and in the store's counters keeps a store ready. -/
theorem Ready.counted {s : Store} {w : World} {k : Kind} (ready : Ready (s, w) k) (i : Nat) (f : Counters → Counters)
    (stats : StoreStats) : Ready ({ s with stats }, w.modifyConnection i fun conn => { conn with counters := f conn.counters }) k := by
  refine ⟨?_, ?_, ready.owner, ready.handles, World.valid_modifyConnection.mpr ready.valid⟩
  · show ((w.modifyConnection i _).connection s.connection).closed = false
    rw [connection_modifyConnection]
    split_ifs
    · exact ready.connected
    · exact ready.connected
  · show ((w.modifyConnection i _).connection s.connection).acknowledged = true
    rw [connection_modifyConnection]
    split_ifs
    · exact ready.acknowledged
    · exact ready.acknowledged

/-- A store that has opened a kind's collection reads the kind from what its handle's slot holds. -/
theorem readsFrom_opened {s : Store} {k : Kind} {h : Handle} (opened : Opened s k h) (w : World) (c : Collection) :
    ReadsFrom (s, w) k c ↔ h.slot < w.slots.size ∧ w.collection h.slot = c := by
  constructor
  · rintro ⟨h', σ₁, handle, inside, holds⟩
    rw [run_collection_opened opened] at handle
    cases handle
    exact ⟨inside, holds⟩
  · rintro ⟨inside, holds⟩
    exact ⟨h, (s, w), run_collection_opened opened w, inside, holds⟩

/-- A load of an id that the collection a ready store reads from holds nothing under: it opens the
collection, finds nothing, and counts a read on the connection and a load in the store. -/
theorem run_load_absent {τ : Store × World} {k : Kind} {c : Collection} {id : Int64} (default : Option Entity)
    (ready : Ready τ k) (testkit : k.logsHooks = true) (reads : ReadsFrom τ k c) (absent : c.lookup id = none) :
    ∃ h s₁ w₁, (collection k).run.run τ = (.ok h, (s₁, w₁)) ∧ h.slot < w₁.slots.size ∧ w₁.collection h.slot = c ∧
      (load k id default).run.run τ = (.ok (({ default.getD (Entity.fresh k id) with
        audit := { (default.getD (Entity.fresh k id)).audit with id, baseline := none } } : Entity).afterLoad true),
        ({ s₁ with stats := { s₁.stats with loads := s₁.stats.loads + 1 } },
          w₁.modifyConnection h.connection fun conn => { conn with counters := conn.counters.read })) := by
  have valid := reads.valid ready
  obtain ⟨h, ⟨s₁, w₁⟩, handle, inside, rfl⟩ := reads
  obtain ⟨h', τ₁', handle', opened, -⟩ := run_collection_open ready testkit
  rw [handle] at handle'
  cases handle'
  have found := run_find opened (Filter.byId id) { limit := some 1 }
  rw [Collection.find_eq, Collection.arrange_first, valid.filter_byId id, absent] at found
  refine ⟨h, s₁, w₁, handle, inside, rfl, ?_⟩
  rw [load, run_bind_ok handle, run_bind_ok (run_database_ok found)]
  rfl

/-- Such a load leaves the store ready, reading the kind from the same collection, which it keeps
open, with its configuration and the clock. -/
theorem load_absent_settles {τ : Store × World} {k : Kind} {c : Collection} {id : Int64} (default : Option Entity)
    (ready : Ready τ k) (testkit : k.logsHooks = true) (reads : ReadsFrom τ k c) (absent : c.lookup id = none) :
    ∃ τ', (load k id default).run.run τ = (.ok (({ default.getD (Entity.fresh k id) with
        audit := { (default.getD (Entity.fresh k id)).audit with id, baseline := none } } : Entity).afterLoad true), τ') ∧
      Ready τ' k ∧ ReadsFrom τ' k c ∧ (∃ h, Opened τ'.1 k h) ∧ Fixed τ τ' := by
  obtain ⟨h, s₁, w₁, handle, inside, holds, loaded⟩ := run_load_absent default ready testkit reads absent
  obtain ⟨h', σ₁, handle', -, ready₁, keeps⟩ := run_collection ready testkit
  rw [handle] at handle'
  cases handle'
  have opened := opened_of_run handle
  have counted : Opened { s₁ with stats := { s₁.stats with loads := s₁.stats.loads + 1 } } k h :=
    ⟨opened.owned, opened.cached⟩
  exact ⟨_, loaded, ready₁.counted _ _ _, (readsFrom_opened counted _ c).mpr ⟨inside, holds⟩, ⟨h, counted⟩,
    keeps.fixed.trans ⟨rfl, rfl⟩⟩

end Store

end GameVault
