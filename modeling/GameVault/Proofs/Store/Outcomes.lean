import Mathlib
import GameVault.Proofs.Store.Tracking
import GameVault.Protocol.Session.Stores

namespace GameVault

open Database

namespace Store

/-- What resolving a collection leaves as it was: the store's connection, configuration and
counters, the clock, every connection and every stored collection. -/
structure Untouched (σ σ' : Store × World) : Prop where
  keeps : Keeps σ σ'
  collections : ∀ slot, σ'.2.collection slot = σ.2.collection slot

theorem Untouched.refl (σ : Store × World) : Untouched σ σ := ⟨⟨rfl, rfl, rfl, rfl, rfl⟩, fun _ => rfl⟩

theorem Untouched.trans {σ σ' σ'' : Store × World} (first : Untouched σ σ') (second : Untouched σ' σ'') :
    Untouched σ σ'' :=
  ⟨⟨second.keeps.connection.trans first.keeps.connection, second.keeps.config.trans first.keeps.config,
    second.keeps.stats.trans first.keeps.stats, second.keeps.clock.trans first.keeps.clock,
    second.keeps.connections.trans first.keeps.connections⟩,
    fun slot => (second.collections slot).trans (first.collections slot)⟩

/-- Whatever its outcome, the operation leaves everything untouched. -/
def Inert {α : Type} (x : StoreOp α) : Prop := ∀ σ r σ', x.run.run σ = (r, σ') → Untouched σ σ'

/-- When it fails, the operation leaves everything untouched. -/
def FailsInert {α : Type} (x : StoreOp α) : Prop :=
  ∀ σ e σ', x.run.run σ = (.error e, σ') → Untouched σ σ'

/-- The operation never fails. -/
def Total {α : Type} (x : StoreOp α) : Prop := ∀ σ, ∃ a σ', x.run.run σ = (.ok a, σ')

theorem run_bind_cases {α β : Type} {x : StoreOp α} {f : α → StoreOp β} {σ σ'' : Store × World}
    {r : Except StoreError β} (ran : (x >>= f).run.run σ = (r, σ'')) :
    (∃ e, x.run.run σ = (.error e, σ'') ∧ r = .error e) ∨
      ∃ a σ', x.run.run σ = (.ok a, σ') ∧ (f a).run.run σ' = (r, σ'') := by
  rcases first : x.run.run σ with ⟨_ | a, σ'⟩
  · rw [run_bind_error first] at ran
    injection ran with result state
    exact .inl ⟨_, state ▸ rfl, result.symm⟩
  · exact .inr ⟨a, σ', rfl, (run_bind_ok first).symm.trans ran⟩

theorem Inert.bind {α β : Type} {x : StoreOp α} {f : α → StoreOp β} (first : Inert x)
    (rest : ∀ a, Inert (f a)) : Inert (x >>= f) := by
  intro σ r σ'' ran
  rcases run_bind_cases ran with ⟨e, failed, -⟩ | ⟨a, σ', ok, next⟩
  · exact first σ _ _ failed
  · exact (first σ _ _ ok).trans (rest a σ' r σ'' next)

theorem FailsInert.bind {α β : Type} {x : StoreOp α} {f : α → StoreOp β} (first : Inert x)
    (rest : ∀ a, FailsInert (f a)) : FailsInert (x >>= f) := by
  intro σ e σ'' ran
  rcases run_bind_cases ran with ⟨e, failed, -⟩ | ⟨a, σ', ok, next⟩
  · exact first σ _ _ failed
  · exact (first σ _ _ ok).trans (rest a σ' e σ'' next)

theorem FailsInert.bind_total {α β : Type} {x : StoreOp α} {f : α → StoreOp β} (first : FailsInert x)
    (rest : ∀ a, Total (f a)) : FailsInert (x >>= f) := by
  intro σ e σ'' ran
  rcases run_bind_cases ran with ⟨e, failed, -⟩ | ⟨a, σ', ok, next⟩
  · exact first σ _ _ failed
  · obtain ⟨b, σ''', done⟩ := rest a σ'
    rw [done] at next
    cases next

theorem Total.bind {α β : Type} {x : StoreOp α} {f : α → StoreOp β} (first : Total x) (rest : ∀ a, Total (f a)) :
    Total (x >>= f) := by
  intro σ
  obtain ⟨a, σ', ok⟩ := first σ
  obtain ⟨b, σ'', next⟩ := rest a σ'
  exact ⟨b, σ'', (run_bind_ok ok).trans next⟩

theorem Total.failsInert {α : Type} {x : StoreOp α} (total : Total x) : FailsInert x := by
  intro σ e σ' ran
  obtain ⟨a, σ'', ok⟩ := total σ
  rw [ok] at ran
  cases ran

theorem inert_pure {α : Type} (a : α) : Inert (pure a : StoreOp α) := by
  intro σ r σ' ran
  cases ran
  exact Untouched.refl σ

theorem inert_get : Inert (get : StoreOp (Store × World)) := by
  intro σ r σ' ran
  cases ran
  exact Untouched.refl σ

theorem total_pure {α : Type} (a : α) : Total (pure a : StoreOp α) := fun σ => ⟨a, σ, rfl⟩

theorem total_tally (f : StoreStats → StoreStats) : Total (tally f) := fun ⟨s, w⟩ => ⟨(), _, run_tally f s w⟩

theorem inert_now : Inert now := by
  intro σ r σ' ran
  rw [run_now] at ran
  cases ran
  exact Untouched.refl σ

theorem inert_codec {α : Type} (r : Except CodecError α) : Inert (codec r) := by
  intro σ r' σ' ran
  cases r with
  | error e =>
    rw [run_codec_error rfl] at ran
    cases ran
    exact Untouched.refl σ
  | ok a =>
    rw [run_codec_ok rfl] at ran
    cases ran
    exact Untouched.refl σ

theorem codec_run_state {α : Type} {r : Except CodecError α} {σ σ' : Store × World} {x : Except StoreError α}
    (ran : (codec r).run.run σ = (x, σ')) : σ' = σ := by
  cases r <;> cases ran <;> rfl

theorem inert_resolve (k : Kind) : Inert (resolve k) := by
  intro ⟨s, w⟩ r σ' ran
  rw [resolve, run_bind_ok (run_get _)] at ran
  dsimp only at ran
  split at ran
  · split at ran <;> cases ran <;> exact Untouched.refl _
  · split at ran
    · cases ran
      exact Untouched.refl _
    · cases ran
      exact ⟨⟨rfl, rfl, rfl, rfl, rfl⟩, fun _ => rfl⟩

theorem run_database_error {α : Type} {op : Op α} {s : Store} {w w' : World} {e : DriverError}
    (ran : op.run.run w = (.error e, w')) : (database op).run.run (s, w) = (.error (.driver e), (s, w')) := by
  rw [database, run_bind_ok (run_get _)]
  simp only [ran]
  rfl

/-- A database operation that keeps the clock, the connections and what every slot holds, whatever
its outcome, leaves everything untouched. -/
theorem inert_database {α : Type} {op : Op α}
    (frame : ∀ w r w', op.run.run w = (r, w') →
      w'.clock = w.clock ∧ w'.connections = w.connections ∧ ∀ slot, w'.collection slot = w.collection slot) :
    Inert (database op) := by
  intro ⟨s, w⟩ r σ' ran
  rcases outcome : op.run.run w with ⟨_ | a, w'⟩
  · rw [run_database_error outcome] at ran
    cases ran
    obtain ⟨clock, connections, collections⟩ := frame w _ w' outcome
    exact ⟨⟨rfl, rfl, rfl, clock, connections⟩, collections⟩
  · rw [run_database_ok outcome] at ran
    cases ran
    obtain ⟨clock, connections, collections⟩ := frame w _ w' outcome
    exact ⟨⟨rfl, rfl, rfl, clock, connections⟩, collections⟩

/-- A new empty collection takes the next slot: every slot reads as it did. -/
theorem collection_push (w : World) (slot : Nat) :
    ({ w with slots := w.slots.push {} } : World).collection slot = w.collection slot := by
  unfold World.collection
  simp only [Array.getD_eq_getD_getElem?, Array.getElem?_push]
  split_ifs with last
  · subst last
    simp
    rfl
  · rfl

theorem collection_setCatalog (w : World) (key : DatabaseKey) (entries : List (String × Nat)) (slot : Nat) :
    (w.setCatalog key entries).collection slot = w.collection slot := by
  unfold World.collection
  rw [slots_setCatalog]

/-- Opening a collection keeps the clock, the connections and what every slot holds. -/
theorem openCollection_frame {w w' : World} {conn : Nat} {name : String} {r : Except DriverError Handle}
    (ran : (openCollection conn name).run.run w = (r, w')) :
    w'.clock = w.clock ∧ w'.connections = w.connections ∧ ∀ slot, w'.collection slot = w.collection slot := by
  have opened : w' = after (openCollection conn name) w := by
    simp only [after, Id.run, ran]
  subst opened
  by_cases closed : (w.connection conn).closed
  · simp [after, openCollection, ensureOpen, closed]
  by_cases invalid : invalidCollectionName name
  · simp [after, openCollection, ensureOpen, closed, invalid]
  simp [after, openCollection, ensureOpen, closed, invalid, ExceptT.run_bind]
  split
  · simp
  · refine ⟨?_, ?_, fun slot => ?_⟩
    · simp [World.setCatalog]
      split_ifs <;> rfl
    · simp [World.setCatalog]
      split_ifs <;> rfl
    · exact (collection_setCatalog _ _ _ slot).trans (collection_push w slot)

/-- Resolving and opening a kind's collection leaves everything untouched, whatever the outcome. -/
theorem inert_collection (k : Kind) : Inert (collection k) := by
  unfold collection
  refine Inert.bind (inert_resolve k) fun name => Inert.bind inert_get fun σ => ?_
  split
  · exact inert_pure _
  refine Inert.bind inert_get fun σ' => Inert.bind (inert_database fun _ _ _ ran => openCollection_frame ran) fun h => ?_
  refine Inert.bind ?_ fun _ => inert_pure h
  intro ⟨s, w⟩ r σ'' ran
  cases ran
  exact ⟨⟨rfl, rfl, rfl, rfl, rfl⟩, fun _ => rfl⟩

/-- A replacement that fails writes nothing. -/
theorem replaceOne_error {w w' : World} {h : Handle} {f : Filter} {doc : Value} {upsert : Bool}
    {e : DriverError} (ran : (h.replaceOne f doc upsert).run.run w = (.error e, w')) : w' = w := by
  by_cases closed : (w.connection h.connection).closed
  · simp [Handle.replaceOne, ensureOpen, closed] at ran
    cases ran
    rfl
  rcases replaced : (w.collection h.slot).replaceOne h.name f doc upsert with refused | ⟨c, r, bytes⟩
  · simp [Handle.replaceOne, ensureOpen, Handle.current, closed, replaced, ExceptT.run_bind] at ran
    cases ran
    rfl
  · rw [run_replaceOne (by simpa using closed) replaced] at ran
    cases ran

theorem failsInert_replaceOne (h : Handle) (f : Filter) (doc : Value) (upsert : Bool) :
    FailsInert (database (h.replaceOne f doc upsert)) := by
  intro ⟨s, w⟩ e σ' ran
  rcases outcome : (h.replaceOne f doc upsert).run.run w with ⟨_ | a, w'⟩
  · rw [run_database_error outcome] at ran
    cases ran
    rw [replaceOne_error outcome]
    exact Untouched.refl _
  · rw [run_database_ok outcome] at ran
    cases ran

theorem failsInert_save (stamped : Entity) (change : ChangeSet) (doc : Value) :
    FailsInert (save stamped change doc) := by
  unfold save
  exact FailsInert.bind (inert_collection _) fun h => FailsInert.bind inert_get fun σ =>
    FailsInert.bind_total (failsInert_replaceOne _ _ _ _) fun r => Total.bind (total_tally _) fun _ => total_pure _

theorem failsInert_add (e : Entity) : FailsInert (add e) := by
  unfold add
  exact FailsInert.bind (inert_collection _) fun _ => FailsInert.bind inert_now fun t =>
    FailsInert.bind (inert_codec _) fun change => FailsInert.bind_total (failsInert_save _ _ _) fun _ => total_pure _

theorem failsInert_update (e : Entity) : FailsInert (update e) := by
  unfold update
  refine FailsInert.bind (inert_codec _) fun change => ?_
  split
  · exact (Total.bind (total_tally _) fun _ => total_pure _).failsInert
  · exact FailsInert.bind (inert_collection _) fun _ => FailsInert.bind inert_now fun t =>
      FailsInert.bind_total (failsInert_save _ _ _) fun _ => total_pure _

theorem failsInert_delete (e : Entity) : FailsInert (delete e) := by
  unfold delete
  exact FailsInert.bind (inert_collection _) fun _ => FailsInert.bind inert_now fun t =>
    FailsInert.bind (inert_codec _) fun change => FailsInert.bind_total (failsInert_save _ _ _) fun _ =>
      Total.bind (total_tally _) fun _ => total_pure _

/-- A save that succeeds opened the kind's collection, replaced the document under the entity's id
through the collection's handle, upserting as the store's configuration says, and counted one write;
it answers the replacement's outcome and the entity, marked saved when the write was acknowledged. -/
theorem save_runs {stamped e' : Entity} {change : ChangeSet} {doc : Value} {σ σ' : Store × World}
    {r : ReplaceOutcome} (ran : (save stamped change doc).run.run σ = (.ok (r, e'), σ')) :
    ∃ h σ₁ σ₂, (collection stamped.kind).run.run σ = (.ok h, σ₁) ∧
      (database (h.replaceOne (Filter.byId stamped.id) doc σ₁.1.config.upsert)).run.run σ₁ = (.ok r, σ₂) ∧
      σ' = ({ σ₂.1 with stats := { σ₂.1.stats with writes := σ₂.1.stats.writes + 1 } }, σ₂.2) ∧
      e' = if r.acknowledged then stamped.markSaved change.fingerprint else stamped := by
  rw [save] at ran
  obtain ⟨h, σ₁, opened, ran⟩ := run_bind_eq_ok ran
  rw [run_bind_ok (run_get _)] at ran
  obtain ⟨r', ⟨s₂, w₂⟩, replaced, ran⟩ := run_bind_eq_ok ran
  obtain ⟨_, σ₃, counted, ran⟩ := run_bind_eq_ok ran
  rw [run_tally] at counted
  cases counted
  obtain ⟨answered, rfl⟩ := pure_eq_ok ran
  obtain ⟨rfl, rfl⟩ := Prod.mk.inj answered
  exact ⟨h, σ₁, (s₂, w₂), opened, replaced, rfl, rfl⟩

theorem save_eq_ok {stamped e' : Entity} {change : ChangeSet} {doc : Value} {σ σ' : Store × World}
    {r : ReplaceOutcome} (ran : (save stamped change doc).run.run σ = (.ok (r, e'), σ')) :
    e' = if r.acknowledged then stamped.markSaved change.fingerprint else stamped := by
  obtain ⟨-, -, -, -, -, -, marked⟩ := save_runs ran
  exact marked

/-- An add that succeeds opened the kind's collection, then saved the entity stamped with its
creation as the document its change check took, and answers the number of documents the save
wrote. -/
theorem add_saves {σ σ' : Store × World} {e e' : Entity} {n : Nat} (ran : (add e).run.run σ = (.ok (n, e'), σ')) :
    ∃ h σ₁ change r, (collection e.kind).run.run σ = (.ok h, σ₁) ∧
      ({ e with audit := e.audit.markCreated (e.audit.nextStamp σ₁.2.clock) } : Entity).checkChanges = .ok change ∧
      (save { e with audit := e.audit.markCreated (e.audit.nextStamp σ₁.2.clock) } change change.document).run.run σ₁ =
        (.ok (r, e'), σ') ∧ n = r.written := by
  rw [add] at ran
  obtain ⟨h, σ₁, opened, ran⟩ := run_bind_eq_ok ran
  obtain ⟨t, σ₂, clock, ran⟩ := run_bind_eq_ok ran
  obtain ⟨rfl, rfl⟩ := now_eq_ok clock
  obtain ⟨change, σ₃, checked, ran⟩ := run_bind_eq_ok ran
  obtain rfl := codec_run_state checked
  obtain ⟨⟨r, e''⟩, σ₄, saved, ran⟩ := run_bind_eq_ok ran
  obtain ⟨answered, rfl⟩ := pure_eq_ok ran
  obtain ⟨rfl, rfl⟩ := Prod.mk.inj answered
  exact ⟨h, _, change, r, opened, codec_of_run checked, saved, rfl⟩

/-- An update that succeeds either found the entity unchanged and answers it as it was, or found a
change, opened the kind's collection, then saved the entity stamped with its update as the document
its change check took, restamped; it answers whether the save was acknowledged. -/
theorem update_skips_or_saves {σ σ' : Store × World} {e e' : Entity} {o : UpdateOutcome}
    (ran : (update e).run.run σ = (.ok (o, e'), σ')) :
    (o = .unchanged ∧ e' = e) ∨
      ∃ h σ₁ change r, (collection e.kind).run.run σ = (.ok h, σ₁) ∧ e.checkChanges = .ok change ∧
        change.changed = true ∧ (save { e with audit := e.audit.markUpdated (e.audit.nextUpdateStamp σ₁.2.clock) } change
          ((change.document.set updateTimeField (.int (e.audit.nextUpdateStamp σ₁.2.clock))).2.set updateCountField
            (.int (if (e.audit.markUpdated (e.audit.nextUpdateStamp σ₁.2.clock)).updateCount.toNat ≤ int64Max then
              (e.audit.markUpdated (e.audit.nextUpdateStamp σ₁.2.clock)).updateCount.toInt64
              else Int64.maxValue))).2).run.run σ₁ = (.ok (r, e'), σ') ∧
        o = (if r.acknowledged then .saved else .unacknowledged) := by
  rw [update] at ran
  obtain ⟨change, σ₁, checked, ran⟩ := run_bind_eq_ok ran
  rw [codec_run_state checked] at ran
  split at ran
  · obtain ⟨_, σ₂, -, ran⟩ := run_bind_eq_ok ran
    obtain ⟨answered, -⟩ := pure_eq_ok ran
    obtain ⟨rfl, rfl⟩ := Prod.mk.inj answered
    exact .inl ⟨rfl, rfl⟩
  next dirty =>
    obtain ⟨h, σ₂, opened, ran⟩ := run_bind_eq_ok ran
    obtain ⟨t, σ₃, clock, ran⟩ := run_bind_eq_ok ran
    obtain ⟨rfl, rfl⟩ := now_eq_ok clock
    obtain ⟨⟨r, e''⟩, σ₄, saved, ran⟩ := run_bind_eq_ok ran
    obtain ⟨answered, rfl⟩ := pure_eq_ok ran
    obtain ⟨rfl, rfl⟩ := Prod.mk.inj answered
    exact .inr ⟨h, _, change, r, opened, codec_of_run checked, by simpa using dirty, saved, rfl⟩

/-- An update that writes, acknowledged or not, found a change, opened the kind's collection, then
saved the entity stamped with its update as the document its change check took, restamped. -/
theorem update_sends {σ σ' : Store × World} {e e' : Entity} {o : UpdateOutcome}
    (ran : (update e).run.run σ = (.ok (o, e'), σ')) (sent : o ≠ .unchanged) :
    ∃ h σ₁ change r, (collection e.kind).run.run σ = (.ok h, σ₁) ∧ e.checkChanges = .ok change ∧
      change.changed = true ∧ (save { e with audit := e.audit.markUpdated (e.audit.nextUpdateStamp σ₁.2.clock) } change
        ((change.document.set updateTimeField (.int (e.audit.nextUpdateStamp σ₁.2.clock))).2.set updateCountField
          (.int (if (e.audit.markUpdated (e.audit.nextUpdateStamp σ₁.2.clock)).updateCount.toNat ≤ int64Max then
            (e.audit.markUpdated (e.audit.nextUpdateStamp σ₁.2.clock)).updateCount.toInt64
            else Int64.maxValue))).2).run.run σ₁ = (.ok (r, e'), σ') := by
  rcases update_skips_or_saves ran with ⟨unchanged, -⟩ | ⟨h, σ₁, change, r, opened, checked, dirty, saved, -⟩
  · exact absurd unchanged sent
  · exact ⟨h, σ₁, change, r, opened, checked, dirty, saved⟩

/-- A delete that succeeds opened the kind's collection, then saved the entity stamped with its
deletion as the document its change check took, counted the delete, and answers the number of
documents the save wrote. -/
theorem delete_saves {σ σ' : Store × World} {e e' : Entity} {n : Nat}
    (ran : (delete e).run.run σ = (.ok (n, e'), σ')) :
    ∃ h σ₁ change r σ₂, (collection e.kind).run.run σ = (.ok h, σ₁) ∧
      ({ e with audit := e.audit.markDeleted (e.audit.nextDeleteStamp σ₁.2.clock) } : Entity).checkChanges = .ok change ∧
      (save { e with audit := e.audit.markDeleted (e.audit.nextDeleteStamp σ₁.2.clock) } change change.document).run.run σ₁ =
        (.ok (r, e'), σ₂) ∧ σ' = ({ σ₂.1 with stats := { σ₂.1.stats with softDeletes := σ₂.1.stats.softDeletes + 1 } }, σ₂.2) ∧
      n = r.written := by
  rw [delete] at ran
  obtain ⟨h, σ₁, opened, ran⟩ := run_bind_eq_ok ran
  obtain ⟨t, σ₂, clock, ran⟩ := run_bind_eq_ok ran
  obtain ⟨rfl, rfl⟩ := now_eq_ok clock
  obtain ⟨change, σ₃, checked, ran⟩ := run_bind_eq_ok ran
  obtain rfl := codec_run_state checked
  obtain ⟨⟨r, e''⟩, ⟨s₄, w₄⟩, saved, ran⟩ := run_bind_eq_ok ran
  obtain ⟨_, σ₅, tallied, ran⟩ := run_bind_eq_ok ran
  rw [run_tally] at tallied
  cases tallied
  obtain ⟨answered, rfl⟩ := pure_eq_ok ran
  obtain ⟨rfl, rfl⟩ := Prod.mk.inj answered
  exact ⟨h, _, change, r, (s₄, w₄), opened, codec_of_run checked, saved, rfl, rfl⟩

/-- An add that succeeds stamps the creation with the clock and the stamps already set, checks the
stamped entity and gives it back, marked saved when the write was acknowledged. -/
theorem add_eq_ok {e e' : Entity} {σ σ' : Store × World} {n : Nat} (ran : (add e).run.run σ = (.ok (n, e'), σ')) :
    let stamped : Entity := { e with audit := e.audit.markCreated (e.audit.nextStamp σ.2.clock) }
    ∃ (change : ChangeSet) (r : ReplaceOutcome), stamped.checkChanges = .ok change ∧ n = r.written ∧
      e' = if r.acknowledged then stamped.markSaved change.fingerprint else stamped := by
  intro stamped
  obtain ⟨h, σ₁, change, r, opened, checked, saved, rfl⟩ := add_saves ran
  rw [(inert_collection _ σ _ σ₁ opened).keeps.clock] at checked saved
  exact ⟨change, r, checked, rfl, save_eq_ok saved⟩

/-- An update that succeeds either finds the entity unchanged and gives it back as it was, or
stamps the update with the clock and the stamps already set, and gives the stamped entity back,
marked saved when the write was acknowledged. -/
theorem update_eq_ok {e e' : Entity} {σ σ' : Store × World} {o : UpdateOutcome}
    (ran : (update e).run.run σ = (.ok (o, e'), σ')) :
    let stamped : Entity := { e with audit := e.audit.markUpdated (e.audit.nextUpdateStamp σ.2.clock) }
    (o = .unchanged ∧ e' = e) ∨
      ∃ (change : ChangeSet) (r : ReplaceOutcome), e.checkChanges = .ok change ∧ change.changed = true ∧
        o = (if r.acknowledged then .saved else .unacknowledged) ∧
        e' = if r.acknowledged then stamped.markSaved change.fingerprint else stamped := by
  intro stamped
  rcases update_skips_or_saves ran with skipped | ⟨h, σ₁, change, r, opened, checked, dirty, saved, rfl⟩
  · exact .inl skipped
  · rw [(inert_collection _ σ _ σ₁ opened).keeps.clock] at saved
    exact .inr ⟨change, r, checked, dirty, rfl, save_eq_ok saved⟩

theorem delete_eq_ok {e e' : Entity} {σ σ' : Store × World} {n : Nat} (ran : (delete e).run.run σ = (.ok (n, e'), σ')) :
    let stamped : Entity := { e with audit := e.audit.markDeleted (e.audit.nextDeleteStamp σ.2.clock) }
    ∃ (change : ChangeSet) (r : ReplaceOutcome), stamped.checkChanges = .ok change ∧ n = r.written ∧
      e' = if r.acknowledged then stamped.markSaved change.fingerprint else stamped := by
  intro stamped
  obtain ⟨h, σ₁, change, r, σ₂, opened, checked, saved, -, rfl⟩ := delete_saves ran
  rw [(inert_collection _ σ _ σ₁ opened).keeps.clock] at checked saved
  exact ⟨change, r, checked, rfl, save_eq_ok saved⟩

theorem stateM_run_bind {α β : Type} (x : StateM (Store × World) α) (f : α → StateM (Store × World) β)
    (σ : Store × World) : (x >>= f).run σ = (f (x.run σ).1).run (x.run σ).2 := rfl

theorem stateM_run_get (σ : Store × World) :
    StateT.run (get : StateM (Store × World) (Store × World)) σ = (σ, σ) := rfl

/-- What a batch may leave of an entity: the entity as it was, or stamped with its creation at
`now`, possibly marked saved. -/
def BatchStep (now : Int64) (e e' : Entity) : Prop :=
  let stamped : Entity := { e with audit := e.audit.markCreated (e.audit.nextStamp now) }
  e' = e ∨ e' = stamped ∨ ∃ fingerprint, e' = stamped.markSaved fingerprint

theorem stampBatch_entities (now : Int64) (es : List Entity) :
    List.Forall₂ (BatchStep now) es (stampBatch now es).1 := by
  induction es with
  | nil => exact .nil
  | cons e rest ih =>
    rcases stampedRest : stampBatch now rest with ⟨later, checked⟩
    rw [stampedRest] at ih
    unfold stampBatch
    rw [stampedRest]
    dsimp only
    split
    · refine .cons (Or.inr (Or.inl rfl)) ?_
      exact List.forall₂_same.mpr fun x _ => Or.inl rfl
    · exact .cons (Or.inr (Or.inl rfl)) ih

/-- A batch whose every entity checks out stamps every one of them. -/
theorem stampBatch_ok {now : Int64} {es stamped : List Entity} {changes : List ChangeSet}
    (checked : stampBatch now es = (stamped, .ok changes)) :
    List.Forall₂ (fun e e' => e' = { e with audit := e.audit.markCreated (e.audit.nextStamp now) }) es stamped := by
  induction es generalizing stamped changes with
  | nil =>
    cases checked
    exact .nil
  | cons e rest ih =>
    rcases stampedRest : stampBatch now rest with ⟨later, laterChecked⟩
    unfold stampBatch at checked
    rw [stampedRest] at checked
    dsimp only at checked
    split at checked
    · cases checked
    · cases laterChecked with
      | error _ => cases checked
      | ok cs =>
        injection checked with stamps
        rw [← stamps]
        exact .cons rfl (ih stampedRest)

theorem markBatch_entities {now : Int64} (attempted : Nat) (refused : List Nat) {es stamped : List Entity}
    (stamps : List.Forall₂ (fun e e' => e' = { e with audit := e.audit.markCreated (e.audit.nextStamp now) })
      es stamped) :
    ∀ (i : Nat) (cs : List ChangeSet), List.Forall₂ (BatchStep now) es (markBatch attempted refused i stamped cs) := by
  induction stamps with
  | nil => intro i cs; unfold markBatch; exact .nil
  | @cons e e' rest stampedRest first others ih =>
    intro i cs
    cases cs with
    | nil =>
      unfold markBatch
      exact .cons (Or.inr (Or.inl first)) (others.imp fun _ _ same => Or.inr (Or.inl same))
    | cons c cs =>
      unfold markBatch
      refine .cons ?_ (ih (i + 1) cs)
      split
      · exact Or.inr (Or.inr ⟨_, by rw [first]⟩)
      · exact Or.inr (Or.inl first)

/-- Every entity a batch gives back is the entity given, or that entity stamped with its creation at
the clock, possibly marked saved. -/
theorem addBatch_entities {k : Kind} {es es' : List Entity} {r : Except StoreError Unit} {σ σ' : Store × World}
    (ran : (addBatch k es).run σ = ((es', r), σ')) : List.Forall₂ (BatchStep σ.2.clock) es es' := by
  unfold addBatch at ran
  split at ran
  · cases ran
    exact List.forall₂_same.mpr fun x _ => Or.inl rfl
  rw [stateM_run_bind] at ran
  rcases opened : (collection k).run.run σ with ⟨_ | h, σ₁⟩
  · rw [opened] at ran
    cases ran
    exact List.forall₂_same.mpr fun x _ => Or.inl rfl
  rw [opened] at ran
  dsimp only at ran
  rw [stateM_run_bind, stateM_run_get] at ran
  dsimp only at ran
  rw [← (inert_collection k σ _ σ₁ opened).keeps.clock]
  rcases checked : stampBatch σ₁.2.clock es with ⟨stamped, _ | changes⟩
  · have stamps := stampBatch_entities σ₁.2.clock es
    rw [checked] at stamps ran
    cases ran
    exact stamps
  rw [checked] at ran
  dsimp only at ran
  have stamps := stampBatch_ok checked
  have saved : ∀ (acknowledged : Bool) (attempted : Nat) (refused : List Nat),
      List.Forall₂ (BatchStep σ₁.2.clock) es
        (if acknowledged then markBatch attempted refused 0 stamped changes else stamped) := by
    intro acknowledged attempted refused
    split
    · exact markBatch_entities attempted refused stamps 0 changes
    · exact stamps.imp fun _ _ same => Or.inr (Or.inl same)
  rw [stateM_run_bind, stateM_run_get] at ran
  dsimp only at ran
  rw [stateM_run_bind] at ran
  rcases inserted : (database (h.insertMany (changes.map (·.document)) σ₁.1.config.ordered)).run.run σ₁ with
    ⟨_ | outcome, σ₂⟩
  · rw [inserted] at ran
    cases ran
    exact stamps.imp fun _ _ same => Or.inr (Or.inl same)
  rw [inserted] at ran
  dsimp only at ran
  rw [stateM_run_bind] at ran
  split at ran
  · cases ran
    exact saved _ _ _
  · rw [stateM_run_bind] at ran
    cases ran
    exact saved _ _ _

end Store

namespace Protocol

theorem step_bind_ok {α β : Type} {x : Step α} {f : α → Step β} {s s' : Session} {a : α}
    (first : x.run.run s = (.ok a, s')) : (x >>= f).run.run s = (f a).run.run s' := by
  simp only [ExceptT.run_bind, StateT.run_bind, first]
  rfl

theorem slotAt_run {s : Session} {i : Nat} {slot : StoreSlot} (found : s.stores[i]? = some slot) :
    (slotAt i).run.run s = (.ok slot, s) := by
  unfold slotAt
  rw [step_bind_ok (show (get : Step Session).run.run s = (.ok s, s) from rfl)]
  simp only [found]
  rfl

theorem onStore_run {α : Type} {s : Session} {i : Nat} {slot : StoreSlot} (found : s.stores[i]? = some slot)
    {op : StoreOp α} {r : Except StoreError α} {σ' : Store × World} (ran : op.run.run (slot.store, s.world) = (r, σ')) :
    (onStore i op).run.run s = (.ok r, { s with world := σ'.2, stores := s.stores.set i { slot with store := σ'.1 } }) := by
  unfold onStore
  rw [step_bind_ok (slotAt_run found), step_bind_ok (show (get : Step Session).run.run s = (.ok s, s) from rfl)]
  simp only [ran]
  rfl

theorem entityWrite_failed {α : Type} {s : Session} {i : Nat} {slot : StoreSlot} (found : s.stores[i]? = some slot)
    {name : String} {e : Entity} {op : Entity → StoreOp (α × Entity)} (answer : α → List (String × Message))
    {err : StoreError} {σ' : Store × World} (failed : (op e).run.run (slot.store, s.world) = (.error err, σ')) :
    (entityWrite i name e op answer).run.run s =
      (.ok (withFields (.store err) [("state", shown e)]),
        { s with world := σ'.2, stores := s.stores.set i { slot with store := σ'.1 } }) := by
  unfold entityWrite
  rw [step_bind_ok (onStore_run found failed)]
  rfl

/-- What a failed write of an entity held in a variable leaves, from any session and through any of
its stores: the step answers the error together with the entity as it was, every variable holds
what it held, the store's counters are as they were, and so is every stored collection. -/
def FailedWriteKeeps {α : Type} (s : Session) (i : Nat) (name : String) (e : Entity)
    (op : Entity → StoreOp (α × Entity)) : Prop :=
  ∀ slot, s.stores[i]? = some slot → ∀ err σ', (op e).run.run (slot.store, s.world) = (.error err, σ') →
    ∀ answer, ∃ s', (entityWrite i name e op answer).run.run s = (.ok (withFields (.store err) [("state", shown e)]), s') ∧
      s'.vars = s.vars ∧ (∃ slot', s'.stores[i]? = some slot' ∧ slot'.store.stats = slot.store.stats) ∧
      ∀ c, (s'.world.collection c).documents = (s.world.collection c).documents

theorem failedWriteKeeps_of_failsInert {α : Type} {op : Entity → StoreOp (α × Entity)} {e : Entity}
    (inert : Store.FailsInert (op e)) (s : Session) (i : Nat) (name : String) : FailedWriteKeeps s i name e op := by
  intro slot found err σ' failed answer
  have untouched := inert _ err σ' failed
  refine ⟨_, entityWrite_failed found answer failed, rfl, ⟨{ slot with store := σ'.1 }, ?_, untouched.keeps.stats⟩,
    fun c => by rw [untouched.collections c]⟩
  have inside : i < s.stores.length := (List.getElem?_eq_some_iff.mp found).1
  simp [inside]

/-- A failed add, update or delete changes nothing: the entity keeps its id, its stamps, its update
count, its deletion mark and its baseline, its save hook has not run, and the store's counters and
the stored documents are as they were; so a retry stamps it once. -/
theorem failed_write_changes_nothing (s : Session) (i : Nat) (name : String) (e : Entity) :
    FailedWriteKeeps s i name e Store.add ∧ FailedWriteKeeps s i name e Store.update ∧
      FailedWriteKeeps s i name e Store.delete :=
  ⟨failedWriteKeeps_of_failsInert (Store.failsInert_add e) s i name,
    failedWriteKeeps_of_failsInert (Store.failsInert_update e) s i name,
    failedWriteKeeps_of_failsInert (Store.failsInert_delete e) s i name⟩

/-- A session whose only store is over a closed connection, holding a role in a variable. -/
def closedSession : Session :=
  { world := { connections := #[{ database := ⟨0, "localhost", "game"⟩, acknowledged := true, closed := true }] },
    server := 0, stores := [{ store := { connection := 0, config := {} }, countersShown := true }],
    vars := [("s", Entity.namedRole 1 "a")] }

theorem add_on_closed_store_changes_nothing :
    ∃ err σ', (Store.add (Entity.namedRole 1 "a")).run.run ({ connection := 0, config := {} }, closedSession.world) =
        (.error err, σ') ∧
      ∃ s', (entityWrite 0 "s" (Entity.namedRole 1 "a") Store.add fun n => [("written", .nat n)]).run.run closedSession =
          (.ok (withFields (.store err) [("state", shown (Entity.namedRole 1 "a"))]), s') ∧
        s'.vars = closedSession.vars ∧ (∃ slot', s'.stores[0]? = some slot' ∧ slot'.store.stats = ({} : StoreStats)) ∧
        ∀ c, (s'.world.collection c).documents = (closedSession.world.collection c).documents :=
  ⟨_, _, rfl, (failed_write_changes_nothing closedSession 0 "s" (Entity.namedRole 1 "a")).1
    { store := { connection := 0, config := {} }, countersShown := true } rfl _ _ rfl _⟩

end Protocol

end GameVault
