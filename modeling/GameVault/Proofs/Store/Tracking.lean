import Mathlib
import GameVault.Proofs.Store.Operations

namespace GameVault

open Database Value

namespace Entity

/-- A change check finds the entity unchanged. -/
def Clean (e : Entity) : Prop := ∃ change, e.checkChanges = .ok change ∧ change.changed = false

theorem clean_of_baseline {e : Entity} {doc : Value} {fingerprint : Fingerprint} (documented : e.document = .ok doc)
    (fingerprinted : Fingerprint.of doc = .ok fingerprint) (baseline : e.audit.baseline = some fingerprint) :
    e.Clean :=
  ⟨_, checkChanges_eq documented fingerprinted, by simp [baseline]⟩

theorem checkChanges_of_overflow {e : Entity} (overflow : 9223372036854775807 < e.audit.updateCount.toNat) :
    e.checkChanges = .error .integerOverflow := by
  simp [checkChanges, document_of_overflow overflow, bind, Except.bind]

@[simp] theorem markSaved_audit (e : Entity) (fingerprint : Fingerprint) :
    (e.markSaved fingerprint).audit = { e.audit with baseline := some fingerprint } := by
  unfold markSaved afterSave
  split <;> rfl

@[simp] theorem markSaved_body (e : Entity) (fingerprint : Fingerprint) : (e.markSaved fingerprint).body = e.body := by
  unfold markSaved afterSave
  split <;> rfl

theorem saves_markSaved {e : Entity} (logs : e.kind.logsHooks = true) (fingerprint : Fingerprint) :
    (e.markSaved fingerprint).hooks.saves = e.hooks.saves + 1 := by
  unfold markSaved afterSave
  rw [if_pos (show (e.attach (some fingerprint)).kind.logsHooks = true from logs)]
  rfl

@[simp] theorem afterLoad_audit (e : Entity) (isNew : Bool) : (e.afterLoad isNew).audit = e.audit := rfl

theorem wellFormed_afterLoad {e : Entity} (wf : e.body.WellFormed) (isNew : Bool) : (e.afterLoad isNew).body.WellFormed := by
  unfold afterLoad
  dsimp only
  split
  · split
    · exact List.nodup_singleton _
    · exact wf
  · exact wf

end Entity

theorem Audit.updateCount_markUpdated {m : Audit} (fits : m.updateCount.toNat ≤ 9223372036854775807) (stamp : Int64) :
    (m.markUpdated stamp).updateCount.toNat = m.updateCount.toNat + 1 := by
  simp only [Audit.markUpdated, UInt64.toNat_add, UInt64.toNat_one]
  omega

/-- The baseline of an entity is the fingerprint of the document it was last written as or read
from, and there is none if it was neither. -/
def Tracks (e : Entity) : Option Value → Prop
  | none => e.audit.baseline = none
  | some doc => ∃ fingerprint, Fingerprint.of doc = .ok fingerprint ∧ e.audit.baseline = some fingerprint

/-- What every entity a caller holds satisfies, with the document it was last written as or read
from: the baseline tracks that document, the update count fits a document, and a bag holds each
item once. -/
structure Consistent (e : Entity) (g : Option Value) : Prop where
  tracks : Tracks e g
  fits : e.audit.updateCount.toNat ≤ 9223372036854775807
  wellFormed : e.body.WellFormed

/-- The entities a caller can hold, each with the document it was last written as or read from. An
entity is built, changed, read or given to the load hook by the caller, or written by a store that
is ready for its kind. -/
inductive Held : Entity → Option Value → Prop
  /-- Built by the caller, as a new entity or from a document: no baseline. -/
  | built {e : Entity} : e.audit.baseline = none → e.audit.updateCount.toNat ≤ 9223372036854775807 →
      e.body.WellFormed → Held e none
  /-- A change of its fields. -/
  | changed {e e' : Entity} {g : Option Value} {m : Mutation} {a : Applied} :
      Held e g → m.apply e = .ok (a, e') → Held e' g
  /-- Read from a stored document. -/
  | read {k : Kind} {doc : Value} {e : Entity} : Store.hydrate k doc = .ok e → Held e (some doc)
  /-- Given to the load hook. -/
  | hooked {e : Entity} {g : Option Value} (isNew : Bool) : Held e g → Held (e.afterLoad isNew) g
  /-- Added: the entity is written as its own document. -/
  | added {e e' : Entity} {g : Option Value} {σ σ' : Store × World} {n : Nat} {doc : Value} :
      Held e g → e.kind.logsHooks = true → Store.Ready σ e.kind → (Store.add e).run.run σ = (.ok (n, e'), σ') →
        e'.document = .ok doc → Held e' (some doc)
  /-- Deleted softly: the entity is written as its own document. -/
  | deleted {e e' : Entity} {g : Option Value} {σ σ' : Store × World} {n : Nat} {doc : Value} :
      Held e g → e.kind.logsHooks = true → Store.Ready σ e.kind → (Store.delete e).run.run σ = (.ok (n, e'), σ') →
        e'.document = .ok doc → Held e' (some doc)
  /-- Updated and saved: the entity is written as its own document, while it has one. -/
  | updated {e e' : Entity} {g : Option Value} {σ σ' : Store × World} {doc : Value} :
      Held e g → e.kind.logsHooks = true → Store.Ready σ e.kind →
        (Store.update e).run.run σ = (.ok (.saved, e'), σ') → e'.document = .ok doc → Held e' (some doc)

namespace Consistent

variable {e : Entity} {g : Option Value}

theorem document (consistent : Consistent e g) :
    e.document = .ok (Value.ofPairs (e.audit.pairs ++ e.body.fields)) :=
  Entity.document_eq consistent.fits

theorem fingerprint (consistent : Consistent e g) :
    Fingerprint.of (Value.ofPairs (e.audit.pairs ++ e.body.fields)) =
      .ok ⟨Xxh3.hash128 (Cbor.write (Fingerprint.stablePart (Value.ofPairs (e.audit.pairs ++ e.body.fields)))).1⟩ :=
  Fingerprint.of_eq_ok (e.document_encodable consistent.wellFormed)

theorem checked (consistent : Consistent e g) :
    ∃ fingerprint, Fingerprint.of (Value.ofPairs (e.audit.pairs ++ e.body.fields)) = .ok fingerprint ∧
      e.checkChanges = .ok ⟨e.audit.baseline != some fingerprint, fingerprint, Value.ofPairs (e.audit.pairs ++ e.body.fields)⟩ :=
  ⟨_, consistent.fingerprint, Entity.checkChanges_eq consistent.document consistent.fingerprint⟩

theorem apply {m : Mutation} {a : Applied} {e' : Entity} (consistent : Consistent e g)
    (applied : m.apply e = .ok (a, e')) : Consistent e' g := by
  obtain ⟨baseline, count, wf⟩ := Mutation.apply_keeps applied consistent.wellFormed
  refine ⟨?_, count ▸ consistent.fits, wf⟩
  cases g with
  | none => exact baseline.trans consistent.tracks
  | some doc =>
    obtain ⟨fingerprint, fingerprinted, tracked⟩ := consistent.tracks
    exact ⟨fingerprint, fingerprinted, baseline.trans tracked⟩

theorem afterLoad (consistent : Consistent e g) (isNew : Bool) : Consistent (e.afterLoad isNew) g :=
  ⟨by cases g <;> exact consistent.tracks, consistent.fits, Entity.wellFormed_afterLoad consistent.wellFormed isNew⟩

end Consistent

theorem Store.entity_eq_of_runs {α : Type} {x : StoreOp (α × Entity)} {σ σ₁ σ₂ : Store × World} {a b : α}
    {e₁ e₂ : Entity} (first : x.run.run σ = (.ok (a, e₁), σ₁)) (second : x.run.run σ = (.ok (b, e₂), σ₂)) :
    e₁ = e₂ :=
  (Prod.mk.inj (Except.ok.inj (Prod.mk.inj (first.symm.trans second)).1)).2

theorem consistent_hydrate {k : Kind} {doc : Value} {e : Entity} (hydrated : Store.hydrate k doc = .ok e) :
    Consistent e (some doc) := by
  obtain ⟨fingerprint, read, fingerprinted, readOk, rfl⟩ := Store.hydrate_eq_ok hydrated
  obtain ⟨-, fits, wf⟩ := Entity.ofDocument_read readOk
  exact ⟨⟨fingerprint, fingerprinted, rfl⟩, fits, wf⟩

/-- An entity marked saved with the fingerprint of a document it has keeps tracking it. -/
theorem consistent_markSaved {stamped : Entity} {fingerprint : Fingerprint} {doc : Value}
    (fingerprinted : Fingerprint.of (Value.ofPairs (stamped.audit.pairs ++ stamped.body.fields)) = .ok fingerprint)
    (fits : stamped.audit.updateCount.toNat ≤ 9223372036854775807) (wf : stamped.body.WellFormed)
    (documented : (stamped.markSaved fingerprint).document = .ok doc) :
    Consistent (stamped.markSaved fingerprint) (some doc) := by
  rw [Entity.document_markSaved, Entity.document_eq fits] at documented
  injection documented with documented
  subst documented
  exact ⟨⟨fingerprint, fingerprinted, by simp⟩, by simpa using fits, by simpa using wf⟩

theorem Consistent.add {e e' : Entity} {g : Option Value} {σ σ' : Store × World} {n : Nat} {doc : Value}
    (consistent : Consistent e g) (testkit : e.kind.logsHooks = true) (ready : Store.Ready σ e.kind)
    (ran : (Store.add e).run.run σ = (.ok (n, e'), σ')) (documented : e'.document = .ok doc) :
    Consistent e' (some doc) := by
  obtain ⟨fingerprint, n', σ'', fingerprinted, ran', -⟩ :=
    Store.run_add ready testkit consistent.wellFormed consistent.fits
  rw [Store.entity_eq_of_runs ran ran'] at documented ⊢
  exact consistent_markSaved fingerprinted consistent.fits consistent.wellFormed documented

theorem Consistent.delete {e e' : Entity} {g : Option Value} {σ σ' : Store × World} {n : Nat} {doc : Value}
    (consistent : Consistent e g) (testkit : e.kind.logsHooks = true) (ready : Store.Ready σ e.kind)
    (ran : (Store.delete e).run.run σ = (.ok (n, e'), σ')) (documented : e'.document = .ok doc) :
    Consistent e' (some doc) := by
  obtain ⟨fingerprint, n', σ'', fingerprinted, ran', -⟩ :=
    Store.run_delete ready testkit consistent.wellFormed consistent.fits
  rw [Store.entity_eq_of_runs ran ran'] at documented ⊢
  exact consistent_markSaved fingerprinted consistent.fits consistent.wellFormed documented

section Update

variable {e : Entity} {g : Option Value}

theorem Fingerprint.of_restamped (time count : Int64) (pairs : List (Value × Value)) :
    Fingerprint.of (.map ((sortEntries pairs).map (restamp time count))) = Fingerprint.of (Value.ofPairs pairs) := by
  rw [Fingerprint.of_eq, Fingerprint.of_eq, stablePart_restamp]
  rfl

theorem Entity.document_updated {stamp : Int64}
    (fits : (e.audit.updateCount + 1).toNat ≤ 9223372036854775807) (fingerprint : Fingerprint) :
    (({ e with audit := e.audit.markUpdated stamp } : Entity).markSaved fingerprint).document =
      .ok (.map ((sortEntries (e.audit.pairs ++ e.body.fields)).map (restamp stamp (e.audit.updateCount + 1).toInt64))) := by
  rw [Entity.document_markSaved, Entity.document_markUpdated stamp fits]

theorem Consistent.update {e' : Entity} {σ σ' : Store × World} {doc : Value} (consistent : Consistent e g)
    (testkit : e.kind.logsHooks = true) (ready : Store.Ready σ e.kind)
    (ran : (Store.update e).run.run σ = (.ok (.saved, e'), σ')) (documented : e'.document = .ok doc) :
    Consistent e' (some doc) := by
  obtain ⟨fingerprint, fingerprinted, checked⟩ := consistent.checked
  cases dirty : (e.audit.baseline != some fingerprint)
  · rw [Store.run_update_unchanged checked dirty] at ran
    cases ran
  obtain ⟨σ'', saved, -, -, -⟩ := Store.run_update_saved ready testkit consistent.wellFormed consistent.fits checked dirty
  rw [Store.entity_eq_of_runs ran saved] at documented ⊢
  have fits : (e.audit.updateCount + 1).toNat ≤ 9223372036854775807 := by
    by_contra overflow
    rw [Entity.document_of_overflow (by simpa [Audit.markUpdated] using overflow)] at documented
    cases documented
  rw [Entity.document_updated fits] at documented
  injection documented with documented
  subst documented
  refine ⟨⟨fingerprint, ?_, by simp⟩, by simpa [Audit.markUpdated] using fits, by simpa using consistent.wellFormed⟩
  rw [Fingerprint.of_restamped, fingerprinted]

end Update

/-- Every entity a caller holds is consistent with the document it was last written as or read
from: the tracker's baseline is that document's fingerprint. -/
theorem Held.consistent {e : Entity} {g : Option Value} (held : Held e g) : Consistent e g := by
  induction held with
  | built fresh fits wf => exact ⟨fresh, fits, wf⟩
  | changed _ applied ih => exact ih.apply applied
  | read hydrated => exact consistent_hydrate hydrated
  | hooked isNew _ ih => exact ih.afterLoad isNew
  | added _ testkit ready ran documented ih => exact ih.add testkit ready ran documented
  | deleted _ testkit ready ran documented ih => exact ih.delete testkit ready ran documented
  | updated _ testkit ready ran documented ih => exact ih.update testkit ready ran documented

theorem Held.of_find {k : Kind} {f : Filter} {o : FindOptions} {σ σ' : Store × World} {entities : List Entity}
    (ran : (Store.findEntities k f o).run.run σ = (.ok entities, σ')) : ∀ e ∈ entities, ∃ doc, Held e (some doc) := by
  intro e member
  obtain ⟨doc, hydrated⟩ := Store.findEntities_read ran e member
  exact ⟨doc, .read hydrated⟩

theorem Body.wellFormed_empty (k : Kind) : (Body.empty k).WellFormed := by
  cases k <;> simp [Body.empty, Body.WellFormed]

/-- Every entity a load answers is held when the default it is given is: read from the stored
document and given to the load hook, or, when none is stored, the default (or a fresh entity) under
the id, without a baseline. -/
theorem Held.of_load {k : Kind} {id : Int64} {default : Option Entity} {σ σ' : Store × World} {e : Entity}
    (defaultHeld : ∀ d, default = some d → ∃ g, Held d g)
    (ran : (Store.load k id default).run.run σ = (.ok e, σ')) : ∃ g, Held e g := by
  rcases Store.load_read ran with ⟨doc, read, hydrated, rfl⟩ | rfl
  · exact ⟨some doc, .hooked false (.read hydrated)⟩
  obtain ⟨fits, wf⟩ : (default.getD (Entity.fresh k id)).audit.updateCount.toNat ≤ 9223372036854775807 ∧
      (default.getD (Entity.fresh k id)).body.WellFormed := by
    cases default with
    | none => exact ⟨by simp [Entity.fresh], Body.wellFormed_empty k⟩
    | some d =>
      obtain ⟨g, held⟩ := defaultHeld d rfl
      exact ⟨held.consistent.fits, held.consistent.wellFormed⟩
  exact ⟨none, .hooked true (.built rfl fits wf)⟩

/-- The stable parts of the entity's document and of the document it was last written as or read
from encode alike; an entity neither written nor read has nothing to match. -/
def SameContent (e : Entity) : Option Value → Prop
  | none => False
  | some last => ∃ doc, e.document = .ok doc ∧
      Cbor.encode (Fingerprint.stablePart doc) = Cbor.encode (Fingerprint.stablePart last)

/-- A hash of byte strings tells apart the encodings of the stable parts of two documents. -/
def Fingerprint.SeparatesBy (hash : List UInt8 → Nat) (x y : Value) : Prop :=
  ∀ a b, Cbor.encode (stablePart x) = .ok a → Cbor.encode (stablePart y) = .ok b → hash a = hash b → a = b

/-- The 128-bit XXH3 hash tells apart the encodings of the stable parts of two documents. -/
def Fingerprint.Separates (x y : Value) : Prop := SeparatesBy Xxh3.hash128 x y

/-- Both stable parts encode, and the hash gives their encodings different values. -/
def Fingerprint.hashesApart (hash : List UInt8 → Nat) (x y : Value) : Bool :=
  match Cbor.encode (stablePart x), Cbor.encode (stablePart y) with
  | .ok a, .ok b => hash a != hash b
  | _, _ => false

theorem Fingerprint.separatesBy_of_hashesApart {hash : List UInt8 → Nat} {x y : Value}
    (apart : hashesApart hash x y = true) : SeparatesBy hash x y := by
  intro a b encoded encoded' hashed
  rw [hashesApart, encoded, encoded'] at apart
  simp [hashed] at apart

theorem Fingerprint.of_eq_ok_iff {x : Value} {fingerprint : Fingerprint} :
    Fingerprint.of x = .ok fingerprint ↔ ∃ bytes, Cbor.encode (stablePart x) = .ok bytes ∧
      fingerprint = ⟨Xxh3.hash128 bytes⟩ := by
  rw [Fingerprint.of_eq]
  cases Cbor.encode (stablePart x) <;> simp [Except.map, eq_comm]

/-- For a consistent entity, the content matches the last document exactly when the baseline is the
fingerprint of the content now, provided the hash separates the two. -/
theorem Consistent.sameContent_iff {e : Entity} {g : Option Value} (consistent : Consistent e g)
    {fingerprint : Fingerprint}
    (fingerprinted : Fingerprint.of (Value.ofPairs (e.audit.pairs ++ e.body.fields)) = .ok fingerprint)
    (separates : ∀ last, g = some last → Fingerprint.Separates (Value.ofPairs (e.audit.pairs ++ e.body.fields)) last) :
    SameContent e g ↔ e.audit.baseline = some fingerprint := by
  cases g with
  | none =>
    have untracked : e.audit.baseline = none := consistent.tracks
    simp [SameContent, untracked]
  | some last =>
    obtain ⟨lastFingerprint, lastFingerprinted, tracked⟩ := consistent.tracks
    obtain ⟨bytes, encoded, rfl⟩ := Fingerprint.of_eq_ok_iff.mp fingerprinted
    obtain ⟨lastBytes, lastEncoded, rfl⟩ := Fingerprint.of_eq_ok_iff.mp lastFingerprinted
    rw [tracked]
    constructor
    · rintro ⟨doc, documented, same⟩
      rw [consistent.document] at documented
      injection documented with documented
      subst documented
      rw [encoded, lastEncoded] at same
      injection same with same
      rw [same]
    · intro same
      have hashes : Xxh3.hash128 bytes = Xxh3.hash128 lastBytes := by
        injection same with same
        injection same with same
        exact same.symm
      refine ⟨_, consistent.document, ?_⟩
      rw [encoded, lastEncoded, separates last rfl bytes lastBytes encoded lastEncoded hashes]

/-- How an update goes from a store, for an entity and the document it was last written as or read
from. It answers unchanged exactly when the content matches that document, and then writes nothing
and leaves the entity as it is; otherwise it saves: one write counted by the store and one by its
connection, the update count one higher, the save hook run once, and the entity clean afterwards
unless its update count no longer fits a document. -/
def UpdateGate (e : Entity) (g : Option Value) (σ : Store × World) : Prop :=
  ∃ o e' σ', (Store.update e).run.run σ = (.ok (o, e'), σ') ∧
    (o = .unchanged ↔ SameContent e g) ∧
    (o = .unchanged → e' = e ∧ σ'.1.stats.writes = σ.1.stats.writes ∧ σ'.2 = σ.2) ∧
    (o ≠ .unchanged → o = .saved ∧ σ'.1.stats.writes = σ.1.stats.writes + 1 ∧
      (σ'.2.connection σ.1.connection).counters.writes = (σ.2.connection σ.1.connection).counters.writes + 1 ∧
      e'.audit.updateCount.toNat = e.audit.updateCount.toNat + 1 ∧ e'.hooks.saves = e.hooks.saves + 1 ∧
      (e.audit.updateCount.toNat < 9223372036854775807 → e'.Clean) ∧
      (e.audit.updateCount.toNat = 9223372036854775807 → e'.checkChanges = .error .integerOverflow))

theorem Consistent.update_gate {e : Entity} {g : Option Value} {σ : Store × World} (consistent : Consistent e g)
    (testkit : e.kind.logsHooks = true) (ready : Store.Ready σ e.kind)
    (separates : ∀ doc last, e.document = .ok doc → g = some last → Fingerprint.Separates doc last) :
    UpdateGate e g σ := by
  obtain ⟨fingerprint, fingerprinted, checked⟩ := consistent.checked
  have sameIff := consistent.sameContent_iff fingerprinted fun last known =>
    separates _ last consistent.document known
  by_cases clean : e.audit.baseline = some fingerprint
  · have flag : (e.audit.baseline != some fingerprint) = false := by simp [clean]
    exact ⟨.unchanged, e, _, Store.run_update_unchanged checked flag σ, ⟨fun _ => sameIff.mpr clean, fun _ => rfl⟩,
      fun _ => ⟨rfl, rfl, rfl⟩, fun other => absurd rfl other⟩
  have flag : (e.audit.baseline != some fingerprint) = true := by simp [clean]
  obtain ⟨σ', saved, stats, driver, -⟩ :=
    Store.run_update_saved ready testkit consistent.wellFormed consistent.fits checked flag
  refine ⟨.saved, _, σ', saved, ⟨nofun, fun same => absurd (sameIff.mp same) clean⟩,
    nofun, fun _ => ⟨rfl, by rw [stats], driver, ?_, Entity.saves_markSaved (by exact testkit) _, ?_, ?_⟩⟩
  · simpa using Audit.updateCount_markUpdated consistent.fits _
  · intro below
    have fits : (e.audit.updateCount + 1).toNat ≤ 9223372036854775807 := by
      rw [UInt64.toNat_add, UInt64.toNat_one]
      omega
    refine @Entity.clean_of_baseline _ _ fingerprint (Entity.document_updated fits _) ?_ (by simp)
    rw [Fingerprint.of_restamped, fingerprinted]
  · intro atMax
    apply Entity.checkChanges_of_overflow
    simp only [Entity.markSaved_audit, Audit.updateCount_markUpdated consistent.fits]
    omega

/-- The dirty gate for an entity a caller holds with the document it was last written as or read
from: from any ready store an update behaves as the gate says, and an add or a delete succeeds
and leaves the entity clean. -/
structure Gated (e : Entity) (g : Option Value) : Prop where
  update : ∀ σ, Store.Ready σ e.kind →
    (∀ doc last, e.document = .ok doc → g = some last → Fingerprint.Separates doc last) → UpdateGate e g σ
  add : ∀ σ, Store.Ready σ e.kind → ∃ n e' σ', (Store.add e).run.run σ = (.ok (n, e'), σ') ∧ e'.Clean
  delete : ∀ σ, Store.Ready σ e.kind → ∃ n e' σ', (Store.delete e).run.run σ = (.ok (n, e'), σ') ∧ e'.Clean

theorem clean_markSaved {stamped : Entity} {fingerprint : Fingerprint}
    (fits : stamped.audit.updateCount.toNat ≤ 9223372036854775807)
    (fingerprinted : Fingerprint.of (Value.ofPairs (stamped.audit.pairs ++ stamped.body.fields)) = .ok fingerprint) :
    (stamped.markSaved fingerprint).Clean :=
  Entity.clean_of_baseline (by rw [Entity.document_markSaved, Entity.document_eq fits]) fingerprinted (by simp)

/-- Over every run of a caller's entity, through changes, reads, adds, deletes and updates, the
store writes an update exactly when the content changed since the document it was last written as
or read from, and leaves the entity clean after every add, delete and saved update. -/
theorem update_writes_iff_content_changed {e : Entity} {g : Option Value} (held : Held e g)
    (testkit : e.kind.logsHooks = true) : Gated e g := by
  have consistent := held.consistent
  refine ⟨fun σ ready separates => consistent.update_gate testkit ready separates, fun σ ready => ?_, fun σ ready => ?_⟩
  · obtain ⟨fingerprint, n, σ', fingerprinted, ran, -⟩ :=
      Store.run_add ready testkit consistent.wellFormed consistent.fits
    exact ⟨n, _, σ', ran, clean_markSaved consistent.fits fingerprinted⟩
  · obtain ⟨fingerprint, n, σ', fingerprinted, ran, -⟩ :=
      Store.run_delete ready testkit consistent.wellFormed consistent.fits
    exact ⟨n, _, σ', ran, clean_markSaved consistent.fits fingerprinted⟩

theorem named_role_gated :
    Held (Entity.namedRole 1 "a") none ∧ (Entity.namedRole 1 "a").kind.logsHooks = true ∧
      Gated (Entity.namedRole 1 "a") none :=
  ⟨.built rfl (by decide) trivial, rfl, update_writes_iff_content_changed (.built rfl (by decide) trivial) rfl⟩

/-- A role whose update count has reached the largest signed 64-bit integer, updated from a store
over a fresh connection, is saved with an update count past it; the saved role has no document, so
updating it again fails. -/
theorem update_past_int64_max_fails :
    ∃ conn w saved σ,
      ({} : World).connect 0 ({} : StoreConfig).connectionString ({} : StoreConfig).database = .ok (conn, w) ∧
      (Store.update { Entity.namedRole 1 "a" with audit := { id := 1, updateCount := 9223372036854775807 } }).run.run
          ({ connection := conn, config := {} }, w) = (.ok (.saved, saved), σ) ∧
      (Store.update saved).run.run σ = (.error (.codec .integerOverflow), σ) := by
  obtain ⟨conn, w, connected⟩ : ∃ conn w,
      ({} : World).connect 0 ({} : StoreConfig).connectionString ({} : StoreConfig).database = .ok (conn, w) := by
    rcases connected : ({} : World).connect 0 ({} : StoreConfig).connectionString ({} : StoreConfig).database with
      err | ⟨conn, w⟩
    · cbv at connected
      cases connected
    · exact ⟨conn, w, rfl⟩
  have ready := Store.ready_connect World.valid_empty
    (show Address.parse ({} : StoreConfig).connectionString = .ok ⟨"localhost", true⟩ by cbv) rfl connected {} .role
  have held : Held { Entity.namedRole 1 "a" with audit := { id := 1, updateCount := 9223372036854775807 } } none :=
    .built rfl (by decide) trivial
  obtain ⟨o, saved, σ, ran, unchangedIff, -, dirty⟩ :=
    held.consistent.update_gate rfl ready fun _ _ _ untracked => by cases untracked
  obtain ⟨rfl, -, -, -, -, -, overflow⟩ := dirty fun unchanged => unchangedIff.mp unchanged
  exact ⟨conn, w, saved, σ, connected, ran, Store.run_update_unchecked (overflow (by decide)) σ⟩

end GameVault
