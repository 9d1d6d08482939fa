import Mathlib
import GameVault.Proofs.Store.Outcomes

namespace GameVault

open Database

@[simp] theorem Int64.toInt_max (a b : Int64) : (max a b).toInt = max a.toInt b.toInt := by
  show (if a ≤ b then b else a).toInt = _
  split_ifs with before
  · rw [Int64.le_iff_toInt_le] at before
    omega
  · rw [Int64.le_iff_toInt_le] at before
    omega

namespace Audit

theorem toInt_successor (t : Int64) : (successor t).toInt = min (t.toInt + 1) Int64.maxValue.toInt := by
  have low := Int64.le_toInt t
  have high := Int64.toInt_le t
  unfold successor
  split_ifs with top
  · subst top
    omega
  · have below : t.toInt ≠ Int64.maxValue.toInt := fun same => top (Int64.toInt_inj.mp same)
    rw [Int64.toInt_add, Int64.toInt_one]
    rw [Int64.toInt_maxValue] at high below ⊢
    rw [Int.bmod_eq_of_le] <;> omega

theorem toInt_nextStamp (m : Audit) (now : Int64) :
    (m.nextStamp now).toInt = max (max (max now.toInt m.createTime.toInt) m.updateTime.toInt) m.deleteTime.toInt := by
  simp only [nextStamp, Int64.toInt_max]

theorem toInt_nextUpdateStamp (m : Audit) (now : Int64) :
    (m.nextUpdateStamp now).toInt =
      max (m.nextStamp now).toInt (min (max m.createTime.toInt m.updateTime.toInt + 1) Int64.maxValue.toInt) := by
  simp only [nextUpdateStamp, Int64.toInt_max, toInt_successor]

theorem toInt_nextDeleteStamp (m : Audit) (now : Int64) :
    (m.nextDeleteStamp now).toInt = max (m.nextStamp now).toInt (min (m.deleteTime.toInt + 1) Int64.maxValue.toInt) := by
  simp only [nextDeleteStamp, Int64.toInt_max, toInt_successor]

theorem le_nextStamp (m : Audit) (now : Int64) :
    now ≤ m.nextStamp now ∧ m.createTime ≤ m.nextStamp now ∧ m.updateTime ≤ m.nextStamp now ∧
      m.deleteTime ≤ m.nextStamp now := by
  simp only [Int64.le_iff_toInt_le, toInt_nextStamp]
  omega

/-- An update stamp is at least the clock and the last update, and strictly after the creation and
the last update unless one of them is the largest 64-bit integer, where it stays. -/
theorem nextUpdateStamp_bounds (m : Audit) (now : Int64) :
    now ≤ m.nextUpdateStamp now ∧ m.updateTime ≤ m.nextUpdateStamp now ∧
      ((m.createTime < m.nextUpdateStamp now ∧ m.updateTime < m.nextUpdateStamp now) ∨
        (m.nextUpdateStamp now = Int64.maxValue ∧
          (m.createTime = Int64.maxValue ∨ m.updateTime = Int64.maxValue))) := by
  have high := Int64.toInt_le (m.nextStamp now)
  simp only [Int64.le_iff_toInt_le, Int64.lt_iff_toInt_lt, ← Int64.toInt_inj, toInt_nextUpdateStamp]
  have stamp := toInt_nextStamp m now
  have createHigh := Int64.toInt_le m.createTime
  have updateHigh := Int64.toInt_le m.updateTime
  omega

/-- A deletion stamp is at least the clock and strictly after the last deletion, unless that is the
largest 64-bit integer, where it stays. -/
theorem nextDeleteStamp_bounds (m : Audit) (now : Int64) :
    now ≤ m.nextDeleteStamp now ∧
      (m.deleteTime < m.nextDeleteStamp now ∨
        (m.nextDeleteStamp now = Int64.maxValue ∧ m.deleteTime = Int64.maxValue)) := by
  have high := Int64.toInt_le (m.nextStamp now)
  simp only [Int64.le_iff_toInt_le, Int64.lt_iff_toInt_lt, ← Int64.toInt_inj, toInt_nextDeleteStamp]
  have stamp := toInt_nextStamp m now
  have deleteHigh := Int64.toInt_le m.deleteTime
  omega

/-- At the largest 64-bit integer the update floor saturates: an entity created then is updated
at that same time, whatever the clock reads. -/
theorem nextUpdateStamp_of_createTime_max (m : Audit) (now : Int64) (top : m.createTime = Int64.maxValue) :
    m.nextUpdateStamp now = Int64.maxValue := by
  have createAt := congrArg Int64.toInt top
  have nowHigh := Int64.toInt_le now
  have updateHigh := Int64.toInt_le m.updateTime
  have deleteHigh := Int64.toInt_le m.deleteTime
  rw [← Int64.toInt_inj, toInt_nextUpdateStamp, toInt_nextStamp]
  rw [Int64.toInt_maxValue] at createAt nowHigh updateHigh deleteHigh ⊢
  omega

/-- No stamp of `b` is earlier than the same stamp of `a`. -/
def StampsLe (a b : Audit) : Prop :=
  a.createTime ≤ b.createTime ∧ a.updateTime ≤ b.updateTime ∧ a.deleteTime ≤ b.deleteTime

theorem StampsLe.refl (a : Audit) : StampsLe a a :=
  ⟨Int64.le_refl _, Int64.le_refl _, Int64.le_refl _⟩

theorem StampsLe.trans {a b c : Audit} (first : StampsLe a b) (second : StampsLe b c) : StampsLe a c :=
  ⟨Int64.le_trans first.1 second.1, Int64.le_trans first.2.1 second.2.1, Int64.le_trans first.2.2 second.2.2⟩

theorem stampsLe_markCreated (m : Audit) (now : Int64) : StampsLe m (m.markCreated (m.nextStamp now)) :=
  ⟨(le_nextStamp m now).2.1, Int64.le_refl _, Int64.le_refl _⟩

theorem stampsLe_markUpdated (m : Audit) (now : Int64) : StampsLe m (m.markUpdated (m.nextUpdateStamp now)) :=
  ⟨Int64.le_refl _, (nextUpdateStamp_bounds m now).2.1, Int64.le_refl _⟩

theorem stampsLe_markDeleted (m : Audit) (now : Int64) : StampsLe m (m.markDeleted (m.nextDeleteStamp now)) := by
  refine ⟨Int64.le_refl _, Int64.le_refl _, ?_⟩
  have bounds := (nextDeleteStamp_bounds m now).2
  simp only [markDeleted, Int64.le_iff_toInt_le, Int64.lt_iff_toInt_lt, ← Int64.toInt_inj] at bounds ⊢
  omega

end Audit

theorem stamps_of_saved {stamped : Entity} {fingerprint : Fingerprint} (saved : Bool) :
    (if saved then stamped.markSaved fingerprint else stamped).audit =
      { stamped.audit with baseline := if saved then some fingerprint else stamped.audit.baseline } := by
  split <;> simp

theorem stampsLe_saved {stamped : Entity} {fingerprint : Fingerprint} (saved : Bool) {m : Audit}
    (before : Audit.StampsLe m stamped.audit) :
    Audit.StampsLe m (if saved then stamped.markSaved fingerprint else stamped).audit := by
  rw [stamps_of_saved]
  exact before

/-- One call of the store on an entity the caller holds, and the entity it leaves the caller. A call
that fails leaves the caller its entity as it was, which a run may always do. -/
inductive StoreCall : Entity → Entity → Prop
  | add {e e' : Entity} {σ σ' : Store × World} {n : Nat} :
      (Store.add e).run.run σ = (.ok (n, e'), σ') → StoreCall e e'
  | update {e e' : Entity} {σ σ' : Store × World} {o : UpdateOutcome} :
      (Store.update e).run.run σ = (.ok (o, e'), σ') → StoreCall e e'
  | delete {e e' : Entity} {σ σ' : Store × World} {n : Nat} :
      (Store.delete e).run.run σ = (.ok (n, e'), σ') → StoreCall e e'
  /-- The entity was one of a batch, which gave `e'` back in its place. -/
  | batch {e e' : Entity} {k : Kind} {es es' : List Entity} {r : Except StoreError Unit} {σ σ' : Store × World} :
      (Store.addBatch k es).run σ = ((es', r), σ') → (e, e') ∈ es.zip es' → StoreCall e e'

theorem StoreCall.stampsLe {e e' : Entity} (call : StoreCall e e') : Audit.StampsLe e.audit e'.audit := by
  cases call with
  | add ran =>
    obtain ⟨_, r, -, -, rfl⟩ := Store.add_eq_ok ran
    exact stampsLe_saved _ (Audit.stampsLe_markCreated _ _)
  | update ran =>
    rcases Store.update_eq_ok ran with ⟨-, rfl⟩ | ⟨_, r, -, -, -, rfl⟩
    · exact Audit.StampsLe.refl _
    · exact stampsLe_saved _ (Audit.stampsLe_markUpdated _ _)
  | delete ran =>
    obtain ⟨_, r, -, -, rfl⟩ := Store.delete_eq_ok ran
    exact stampsLe_saved _ (Audit.stampsLe_markDeleted _ _)
  | batch ran member =>
    rcases List.forall₂_zip (Store.addBatch_entities ran) member with rfl | rfl | ⟨_, rfl⟩
    · exact Audit.StampsLe.refl _
    · exact Audit.stampsLe_markCreated _ _
    · rw [Entity.markSaved_audit]
      exact Audit.stampsLe_markCreated _ _

/-- What the store promises about audit stamps: through any run of calls no stamp goes back; an
add, or a batch that stamps an entity, stamps its creation no earlier than the clock; an update
that writes stamps a time no earlier than the clock and strictly after the creation and the last
update, unless one of them is the largest 64-bit integer and the stamp stays there, and counts
itself once; a delete that succeeds stamps a time no earlier than the clock and strictly after the
last deletion, unless that is the largest 64-bit integer, and marks the entity deleted. -/
structure StampLaws : Prop where
  runs : ∀ e e', Relation.ReflTransGen StoreCall e e' → Audit.StampsLe e.audit e'.audit
  add : ∀ (e e' : Entity) (σ σ' : Store × World) (n : Nat), (Store.add e).run.run σ = (.ok (n, e'), σ') →
    σ.2.clock ≤ e'.audit.createTime
  batch : ∀ (k : Kind) (es es' : List Entity) r (σ σ' : Store × World), (Store.addBatch k es).run σ = ((es', r), σ') →
    ∀ e e', (e, e') ∈ es.zip es' → e'.audit.createTime = e.audit.createTime ∨ σ.2.clock ≤ e'.audit.createTime
  update : ∀ (e e' : Entity) (σ σ' : Store × World) (o : UpdateOutcome),
    (Store.update e).run.run σ = (.ok (o, e'), σ') → o ≠ .unchanged →
      σ.2.clock ≤ e'.audit.updateTime ∧
      ((e.audit.createTime < e'.audit.updateTime ∧ e.audit.updateTime < e'.audit.updateTime) ∨
        (e'.audit.updateTime = Int64.maxValue ∧
          (e.audit.createTime = Int64.maxValue ∨ e.audit.updateTime = Int64.maxValue))) ∧
      e'.audit.updateCount.toNat = e.audit.updateCount.toNat + 1
  delete : ∀ (e e' : Entity) (σ σ' : Store × World) (n : Nat), (Store.delete e).run.run σ = (.ok (n, e'), σ') →
    σ.2.clock ≤ e'.audit.deleteTime ∧
      (e.audit.deleteTime < e'.audit.deleteTime ∨
        (e'.audit.deleteTime = Int64.maxValue ∧ e.audit.deleteTime = Int64.maxValue)) ∧
      e'.audit.isDeleted = true

theorem updateCount_succ {e : Entity} {change : ChangeSet} (checked : e.checkChanges = .ok change) :
    (e.audit.updateCount + 1).toNat = e.audit.updateCount.toNat + 1 := by
  have fits : e.audit.updateCount.toNat ≤ 9223372036854775807 := by
    by_contra overflow
    rw [Entity.checkChanges_of_overflow (Nat.lt_of_not_le overflow)] at checked
    cases checked
  rw [UInt64.toNat_add, UInt64.toNat_one]
  omega

theorem stampsLe_of_calls {e e' : Entity} (run : Relation.ReflTransGen StoreCall e e') :
    Audit.StampsLe e.audit e'.audit := by
  induction run with
  | refl => exact Audit.StampsLe.refl _
  | tail _ call ih => exact ih.trans call.stampsLe

theorem add_stamps_creation {e e' : Entity} {σ σ' : Store × World} {n : Nat}
    (ran : (Store.add e).run.run σ = (.ok (n, e'), σ')) : σ.2.clock ≤ e'.audit.createTime := by
  obtain ⟨_, r, -, -, rfl⟩ := Store.add_eq_ok ran
  rw [stamps_of_saved]
  exact (Audit.le_nextStamp _ _).1

theorem batch_stamps_creation {k : Kind} {es es' : List Entity} {r : Except StoreError Unit}
    {σ σ' : Store × World} (ran : (Store.addBatch k es).run σ = ((es', r), σ')) {e e' : Entity}
    (member : (e, e') ∈ es.zip es') : e'.audit.createTime = e.audit.createTime ∨ σ.2.clock ≤ e'.audit.createTime := by
  rcases List.forall₂_zip (Store.addBatch_entities ran) member with rfl | rfl | ⟨_, rfl⟩
  · exact .inl rfl
  · exact .inr (Audit.le_nextStamp _ _).1
  · rw [Entity.markSaved_audit]
    exact .inr (Audit.le_nextStamp _ _).1

/-- An update that writes stamps no earlier than the clock, after the creation and the last update
or at the largest 64-bit integer where one of them already is, and counts itself once. -/
theorem update_stamps_after {e e' : Entity} {σ σ' : Store × World} {o : UpdateOutcome}
    (ran : (Store.update e).run.run σ = (.ok (o, e'), σ')) (written : o ≠ .unchanged) :
    σ.2.clock ≤ e'.audit.updateTime ∧
      ((e.audit.createTime < e'.audit.updateTime ∧ e.audit.updateTime < e'.audit.updateTime) ∨
        (e'.audit.updateTime = Int64.maxValue ∧
          (e.audit.createTime = Int64.maxValue ∨ e.audit.updateTime = Int64.maxValue))) ∧
      e'.audit.updateCount.toNat = e.audit.updateCount.toNat + 1 := by
  rcases Store.update_eq_ok ran with ⟨unchanged, -⟩ | ⟨change, r, checked, -, -, rfl⟩
  · exact absurd unchanged written
  rw [stamps_of_saved]
  obtain ⟨clock, -, strict⟩ := Audit.nextUpdateStamp_bounds e.audit σ.2.clock
  exact ⟨clock, strict, updateCount_succ checked⟩

/-- A delete that succeeds stamps no earlier than the clock, after the last deletion or at the
largest 64-bit integer where that already is, and marks the entity deleted. -/
theorem delete_stamps_after {e e' : Entity} {σ σ' : Store × World} {n : Nat}
    (ran : (Store.delete e).run.run σ = (.ok (n, e'), σ')) :
    σ.2.clock ≤ e'.audit.deleteTime ∧
      (e.audit.deleteTime < e'.audit.deleteTime ∨
        (e'.audit.deleteTime = Int64.maxValue ∧ e.audit.deleteTime = Int64.maxValue)) ∧
      e'.audit.isDeleted = true := by
  obtain ⟨_, r, -, -, rfl⟩ := Store.delete_eq_ok ran
  rw [stamps_of_saved]
  obtain ⟨clock, strict⟩ := Audit.nextDeleteStamp_bounds e.audit σ.2.clock
  exact ⟨clock, strict, rfl⟩

/-- Audit stamps never go back, whatever the clock reads, and each write stamps as the store
promises: strictly later where it must, saturating at the largest 64-bit integer. -/
theorem saturating_stamp_laws : StampLaws where
  runs _ _ run := stampsLe_of_calls run
  add _ _ _ _ _ ran := add_stamps_creation ran
  batch _ _ _ _ _ _ ran _ _ member := batch_stamps_creation ran member
  update _ _ _ _ _ ran written := update_stamps_after ran written
  delete _ _ _ _ _ ran := delete_stamps_after ran

/-- What the store promises about the stamps of an entity a caller holds, for every call on it: no
stamp goes back through any run of calls; an add, or a batch that stamps it, stamps its creation no
earlier than the clock; an update that writes stamps a time no earlier than the clock and strictly
after its creation and its last update, and counts itself once; a delete that succeeds stamps a
time no earlier than the clock and strictly after its last deletion, and marks it deleted. -/
structure StrictStamps (e : Entity) : Prop where
  runs : ∀ e', Relation.ReflTransGen StoreCall e e' → Audit.StampsLe e.audit e'.audit
  add : ∀ (e' : Entity) (σ σ' : Store × World) (n : Nat), (Store.add e).run.run σ = (.ok (n, e'), σ') →
    σ.2.clock ≤ e'.audit.createTime
  batch : ∀ (k : Kind) (es es' : List Entity) r (σ σ' : Store × World), (Store.addBatch k es).run σ = ((es', r), σ') →
    ∀ e', (e, e') ∈ es.zip es' → e'.audit.createTime = e.audit.createTime ∨ σ.2.clock ≤ e'.audit.createTime
  update : ∀ (e' : Entity) (σ σ' : Store × World) (o : UpdateOutcome),
    (Store.update e).run.run σ = (.ok (o, e'), σ') → o ≠ .unchanged →
      σ.2.clock ≤ e'.audit.updateTime ∧ e.audit.createTime < e'.audit.updateTime ∧
        e.audit.updateTime < e'.audit.updateTime ∧ e'.audit.updateCount.toNat = e.audit.updateCount.toNat + 1
  delete : ∀ (e' : Entity) (σ σ' : Store × World) (n : Nat), (Store.delete e).run.run σ = (.ok (n, e'), σ') →
    σ.2.clock ≤ e'.audit.deleteTime ∧ e.audit.deleteTime < e'.audit.deleteTime ∧ e'.audit.isDeleted = true

/-- Every entity whose stamps are below the largest 64-bit integer is stamped as the store
promises, by every call on it and whatever the clock reads: below that integer no stamp saturates. -/
theorem audit_stamps_monotone (e : Entity)
    (below : e.audit.createTime ≠ Int64.maxValue ∧ e.audit.updateTime ≠ Int64.maxValue ∧
      e.audit.deleteTime ≠ Int64.maxValue) : StrictStamps e where
  runs _ run := stampsLe_of_calls run
  add _ _ _ _ ran := add_stamps_creation ran
  batch _ _ _ _ _ _ ran _ member := batch_stamps_creation ran member
  update e' σ σ' o ran written := by
    obtain ⟨clock, strict, counted⟩ := update_stamps_after ran written
    rcases strict with ⟨afterCreation, afterUpdate⟩ | ⟨-, atMax | atMax⟩
    · exact ⟨clock, afterCreation, afterUpdate, counted⟩
    · exact absurd atMax below.1
    · exact absurd atMax below.2.1
  delete e' σ σ' n ran := by
    obtain ⟨clock, strict, deleted⟩ := delete_stamps_after ran
    rcases strict with after | ⟨-, atMax⟩
    · exact ⟨clock, after, deleted⟩
    · exact absurd atMax below.2.2

/-- A store over a fresh connection to the default database is ready for every kind. -/
theorem fresh_store_ready (k : Kind) :
    ∃ conn w, ({} : World).connect 0 ({} : StoreConfig).connectionString ({} : StoreConfig).database = .ok (conn, w) ∧
      Store.Ready ({ connection := conn, config := {} }, w) k := by
  rcases connected : ({} : World).connect 0 ({} : StoreConfig).connectionString ({} : StoreConfig).database with
    err | ⟨conn, w⟩
  · cbv at connected
    cases connected
  · exact ⟨conn, w, rfl, Store.ready_connect World.valid_empty
      (show Address.parse ({} : StoreConfig).connectionString = .ok ⟨"localhost", true⟩ by cbv) rfl connected {} k⟩

/-- A role created at the largest 64-bit integer, updated from a store over a fresh connection, is
saved with its update stamped at that same time: the update is not strictly after the creation. -/
theorem update_at_int64_max_not_after_creation :
    ∃ conn w saved σ,
      ({} : World).connect 0 ({} : StoreConfig).connectionString ({} : StoreConfig).database = .ok (conn, w) ∧
      (Store.update { Entity.namedRole 1 "a" with audit := { id := 1, createTime := Int64.maxValue } }).run.run
          ({ connection := conn, config := {} }, w) = (.ok (.saved, saved), σ) ∧
      saved.audit.createTime = Int64.maxValue ∧ saved.audit.updateTime = Int64.maxValue := by
  obtain ⟨conn, w, connected, ready⟩ := fresh_store_ready .role
  have held : Held { Entity.namedRole 1 "a" with audit := { id := 1, createTime := Int64.maxValue } } none :=
    .built rfl (by decide) trivial
  obtain ⟨o, saved, σ, ran, unchangedIff, -, dirty⟩ :=
    held.consistent.update_gate rfl ready fun _ _ _ untracked => by cases untracked
  obtain ⟨rfl, -⟩ := dirty fun unchanged => unchangedIff.mp unchanged
  refine ⟨conn, w, saved, σ, connected, ran, ?_⟩
  rcases Store.update_eq_ok ran with ⟨unchanged, -⟩ | ⟨change, r, -, -, -, rfl⟩
  · cases unchanged
  rw [stamps_of_saved]
  exact ⟨rfl, Audit.nextUpdateStamp_of_createTime_max _ _ rfl⟩

end GameVault
