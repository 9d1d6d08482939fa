import Mathlib
import GameVault.Stress.Run
import GameVault.Proofs.Store.Keyed
import GameVault.Proofs.Store.Changes

namespace GameVault

open Database Store

namespace Stress

variable {c : StressConfig} {n : Nat} {t : StressTally} {σ σ' : Store × World}

theorem run_advance_load {role : Entity} (loaded : (Store.load .role (actorId n) none).run.run σ = (.ok role, σ')) :
    (advance c n .load t).run σ = ((.add { role with body := rename (actorName (actorId n)) role.body }, t), σ') := by
  simp only [advance, StateT.run_bind, loaded]
  rfl

theorem run_advance_add {role role' : Entity} {k : Nat} (added : (Store.add role).run.run σ = (.ok (k, role'), σ')) :
    (advance c n (.add role) t).run σ = ((.ticking role' (List.range c.ticks), t), σ') := by
  simp only [advance, StateT.run_bind, added]
  rfl

theorem run_advance_tick {role role' : Entity} {i : Nat} {rest : List Nat} {t' : StressTally}
    (ticked : (tick (max c.mutateEvery 1) role t i).run σ = ((role', t'), σ')) :
    (advance c n (.ticking role (i :: rest)) t).run σ = ((.ticking role' rest, t'), σ') := by
  simp only [advance, StateT.run_bind, ticked]
  rfl

theorem run_tick_saved {every i : Nat} {role role' : Entity}
    (updated : (Store.update (if i % every = 0 then { role with body := levelUp role.body } else role)).run.run σ =
      (.ok (.saved, role'), σ')) :
    (tick every role t i).run σ = ((role', { t with saved := t.saved + 1 }), σ') := by
  simp only [tick, StateT.run_bind, updated]
  rfl

theorem run_tick_unchanged {every i : Nat} {role role' : Entity}
    (updated : (Store.update (if i % every = 0 then { role with body := levelUp role.body } else role)).run.run σ =
      (.ok (.unchanged, role'), σ')) :
    (tick every role t i).run σ = ((role', { t with skipped := t.skipped + 1 }), σ') := by
  simp only [tick, StateT.run_bind, updated]
  rfl

/-- The changes among an actor's first `i` ticks: the ticks on a multiple of the change period. -/
def changes (c : StressConfig) (i : Nat) : Nat := Nat.count (fun j => j % max c.mutateEvery 1 = 0) i

theorem changes_succ (c : StressConfig) (i : Nat) :
    changes c (i + 1) = changes c i + if i % max c.mutateEvery 1 = 0 then 1 else 0 :=
  Nat.count_succ _ _

theorem changes_le (c : StressConfig) (i : Nat) : changes c i ≤ i := Nat.count_le _

theorem changes_mono (c : StressConfig) {i j : Nat} (le : i ≤ j) : changes c i ≤ changes c j :=
  Nat.count_monotone _ le

/-- The changes among the first `i` ticks are `i` over the period, rounded up. -/
theorem changes_eq (c : StressConfig) (i : Nat) :
    changes c i = (i + max c.mutateEvery 1 - 1) / max c.mutateEvery 1 := by
  have positive : 0 < max c.mutateEvery 1 := by omega
  induction i with
  | zero => exact (Nat.div_eq_of_lt (by omega)).symm
  | succ i ih =>
    rw [changes_succ, ih, show i + 1 + max c.mutateEvery 1 - 1 = i + max c.mutateEvery 1 - 1 + 1 by omega,
      Nat.succ_div]
    have divides : max c.mutateEvery 1 ∣ i + max c.mutateEvery 1 - 1 + 1 ↔ i % max c.mutateEvery 1 = 0 := by
      rw [show i + max c.mutateEvery 1 - 1 + 1 = i + max c.mutateEvery 1 by omega, Nat.dvd_add_self_right,
        Nat.dvd_iff_mod_eq_zero]
    simp only [divides]

theorem changes_ticks (c : StressConfig) : changes c c.ticks = c.expectedSavesPerActor :=
  changes_eq c c.ticks

/-- The stamp actor `n`'s add gives its role's creation under a clock. -/
def created (clock : Int64) (n : Nat) : Int64 := ({ id := actorId n } : Audit).nextStamp clock

/-- What actor `n` stores of its role at a level under a clock, but for the update stamp and count:
the document whose encoding, those left out, the change check hashes. -/
def roleDocument (clock : Int64) (n level : Nat) : Value :=
  Value.ofPairs (({ id := actorId n, createTime := created clock n } : Audit).pairs ++
    (Body.role (actorName (actorId n)) (UInt32.ofNat level) 0).fields)

/-- The hash tells apart what each actor stores of its role at every level a run reaches and at the
level before. -/
def Separated (c : StressConfig) (clock : Int64) : Prop :=
  ∀ n < c.actors, ∀ level < c.expectedSavesPerActor,
    Fingerprint.Separates (roleDocument clock n (level + 1)) (roleDocument clock n level)

/-- Actor `n`'s role after `i` of its ticks, under a clock: named for the actor, raised once for each
change among those ticks and updated as often, created at the actor's stamp and not deleted, and
tracking its own document, which the collection holds under the actor's id. -/
structure Ticked (c : StressConfig) (clock : Int64) (n i : Nat) (role : Entity) (coll : Collection) : Prop where
  body : role.body = .role (actorName (actorId n)) (UInt32.ofNat (changes c i)) 0
  id : role.audit.id = actorId n
  createTime : role.audit.createTime = created clock n
  deleteTime : role.audit.deleteTime = 0
  live : role.audit.isDeleted = false
  count : role.audit.updateCount.toNat = changes c i
  consistent : Consistent role (some (Value.ofPairs (role.audit.pairs ++ role.body.fields)))
  stored : coll.lookup (actorId n) = some (Value.ofPairs (role.audit.pairs ++ role.body.fields))

/-- What an actor's stage says of its role and of the collection the store reads roles from: before
the load and the add nothing is stored under the actor's id, the loaded role is new and named for the
actor, and on its ticks the role has run those before the ones left. No actor stops. -/
def Stage.Holds (c : StressConfig) (clock : Int64) (n : Nat) (coll : Collection) : Stage → Prop
  | .load => coll.lookup (actorId n) = none
  | .add role => role.audit = { id := actorId n } ∧ role.body = .role (actorName (actorId n)) 0 0 ∧
      coll.lookup (actorId n) = none
  | .ticking role rest => ∃ i, i + rest.length = c.ticks ∧ rest = List.range' i rest.length ∧
      Ticked c clock n i role coll
  | .stopped => False

/-- The ticks an actor has run. -/
def Stage.ticked (c : StressConfig) : Stage → Nat
  | .ticking _ rest => c.ticks - rest.length
  | _ => 0

/-- The store calls an actor has still to make. -/
def Stage.remaining (c : StressConfig) : Stage → Nat
  | .load => c.ticks + 2
  | .add _ => c.ticks + 1
  | .ticking _ rest => rest.length
  | .stopped => 0

/-- One store call of actor `n`, from a store reading roles from `coll` to one reading them from
`coll'`: the store stays ready with its configuration and clock and keeps the role collection open,
the collection changes under the actor's id only, the actor's new stage holds, it has one call less
to make, and the counts grow by what its ticks account for. -/
structure Called (c : StressConfig) (clock : Int64) (n : Nat) (σ σ' : Store × World) (coll coll' : Collection)
    (stage stage' : Stage) (t t' : StressTally) : Prop where
  ready : Ready σ' .role
  reads : ReadsFrom σ' .role coll'
  fixed : Fixed σ σ'
  opened : ∃ h, Opened σ'.1 .role h
  frame : ∀ k, k ≠ actorId n → coll'.lookup k = coll.lookup k
  holds : stage'.Holds c clock n coll'
  remaining : stage'.remaining c + 1 = stage.remaining c
  saved : t'.saved + changes c (stage.ticked c) = t.saved + changes c (stage'.ticked c)
  skipped : t'.skipped + (stage.ticked c - changes c (stage.ticked c)) =
    t.skipped + (stage'.ticked c - changes c (stage'.ticked c))
  failed : t'.failed = t.failed

section Calls

variable {clock : Int64} {coll : Collection}

theorem called_load (ready : Ready σ .role) (reads : ReadsFrom σ .role coll)
    (holds : Stage.load.Holds c clock n coll) :
    ∃ stage t' σ', (advance c n .load t).run σ = ((stage, t'), σ') ∧ Called c clock n σ σ' coll coll .load stage t t' := by
  obtain ⟨σ', loaded, ready', reads', opened, fixed⟩ := load_absent_settles none ready rfl reads holds
  exact ⟨_, t, σ', run_advance_load loaded,
    ⟨ready', reads', fixed, opened, fun _ _ => rfl, ⟨rfl, rfl, holds⟩, rfl, rfl, rfl, rfl⟩⟩

/-- The add writes the new role: it is stamped at the actor's creation stamp, the collection holds
it under the actor's id, and its ticks begin. -/
theorem called_add {role : Entity} (ready : Ready σ .role) (reads : ReadsFrom σ .role coll)
    (upsert : σ.1.config.upsert = true) (clocked : σ.2.clock = clock) (holds : (Stage.add role).Holds c clock n coll) :
    ∃ stage t' σ' coll', (advance c n (.add role) t).run σ = ((stage, t'), σ') ∧
      Called c clock n σ σ' coll coll' (.add role) stage t t' := by
  obtain ⟨audit, body, absent⟩ := holds
  have kind : role.kind = .role := by rw [Entity.kind, body]; rfl
  have consistent : Consistent role none := ⟨by simp [Tracks, audit], by simp [audit], by simp [body, Body.WellFormed]⟩
  obtain ⟨fingerprint, k, σ', -, added, -⟩ := run_add (kind ▸ ready) (by rw [kind]; rfl) consistent.wellFormed consistent.fits
  obtain ⟨coll', reads', lookups, ready', opened, fixed, consistent'⟩ :=
    Written.stores consistent (by rw [kind]; rfl) (kind ▸ ready) (kind ▸ reads) (.inl upsert) (.add added)
      (Entity.document_eq (by simp [audit, Audit.markCreated]))
  rw [kind] at reads' ready' opened
  refine ⟨_, t, σ', coll', run_advance_add added, ready', reads', fixed, opened, fun k other => ?_, ?_, ?_,
    by simp [Stage.ticked], by simp [Stage.ticked], rfl⟩
  · rw [lookups, if_neg (by simpa [Entity.id, audit] using other)]
  · refine ⟨0, by simp, by simp [List.range_eq_range'], ⟨?_, ?_, ?_, ?_, ?_, ?_, consistent', ?_⟩⟩
    · simp [body, changes]
    · simp [audit, Audit.markCreated]
    · simp [audit, created, clocked, Audit.markCreated]
    · simp [audit, Audit.markCreated]
    · simp [audit, Audit.markCreated]
    · simp [audit, changes, Audit.markCreated]
    · rw [lookups, if_pos (by simp [Entity.id, audit])]
  · simp [Stage.remaining]

theorem Ticked.stablePart {i : Nat} {role : Entity} (ticked : Ticked c clock n i role coll) (b : Body) :
    Fingerprint.stablePart (Value.ofPairs (role.audit.pairs ++ b.fields)) =
      Fingerprint.stablePart (Value.ofPairs (({ id := actorId n, createTime := created clock n } : Audit).pairs ++
        b.fields)) := by
  have restamped : role.audit.pairs = { ({ id := actorId n, createTime := created clock n } : Audit) with
      updateTime := role.audit.updateTime, updateCount := role.audit.updateCount }.pairs := by
    simp [Audit.pairs, ticked.id, ticked.createTime, ticked.deleteTime, ticked.live]
  rw [restamped, stablePart_restamped]

/-- A tick that changes nothing: the role is as saved, so its update is skipped and writes nothing. -/
theorem called_skip {role : Entity} {i : Nat} {rest : List Nat} (ready : Ready σ .role) (reads : ReadsFrom σ .role coll)
    (opened : ∃ h, Opened σ.1 .role h) (ticked : Ticked c clock n i role coll) (length : i + (rest.length + 1) = c.ticks)
    (following : rest = List.range' (i + 1) rest.length) (unchanged : ¬i % max c.mutateEvery 1 = 0) :
    ∃ stage t' σ' coll', (advance c n (.ticking role (i :: rest)) t).run σ = ((stage, t'), σ') ∧
      Called c clock n σ σ' coll coll' (.ticking role (i :: rest)) stage t t' := by
  obtain ⟨fingerprint, fingerprinted, checked⟩ := ticked.consistent.checked
  obtain ⟨tracked, fingerprinted', baseline⟩ := ticked.consistent.tracks
  rw [fingerprinted] at fingerprinted'
  cases fingerprinted'
  have clean : (role.audit.baseline != some fingerprint) = false := by simp [baseline]
  have updated := run_update_unchanged checked clean σ
  obtain ⟨h, opened⟩ := opened
  have counted : Opened { σ.1 with stats := { σ.1.stats with skippedUpdates := σ.1.stats.skippedUpdates + 1 } } .role h :=
    ⟨opened.owned, opened.cached⟩
  have same : changes c (i + 1) = changes c i := by simp [changes_succ, unchanged]
  have before : c.ticks - (rest.length + 1) = i := by omega
  have after : c.ticks - rest.length = i + 1 := by omega
  have ran : (advance c n (.ticking role (i :: rest)) t).run σ = _ :=
    run_advance_tick (run_tick_unchanged (by rw [if_neg unchanged]; exact updated))
  refine ⟨_, _, _, coll, ran, ⟨ready.connected, ready.acknowledged, ready.owner, ready.handles, ready.valid⟩,
    (readsFrom_opened counted σ.2 coll).mpr ((readsFrom_opened opened σ.2 coll).mp reads), ⟨rfl, rfl⟩, ⟨h, counted⟩,
    fun _ _ => rfl, ⟨i + 1, by omega, following, ?_⟩, by simp [Stage.remaining],
    by simp only [Stage.ticked, List.length_cons, before, after, same], ?_, rfl⟩
  · exact ⟨same ▸ ticked.body, ticked.id, ticked.createTime, ticked.deleteTime, ticked.live, same ▸ ticked.count,
      ticked.consistent, ticked.stored⟩
  · have below := changes_le c i
    simp only [Stage.ticked, List.length_cons, before, after, same]
    omega

/-- A tick that raises the level: the role now differs from what was saved, the hash tells the two
documents apart, so the update saves the role at the new level under the actor's id. -/
theorem called_change {role : Entity} {i : Nat} {rest : List Nat} (small : c.ticks < 2 ^ 32)
    (separated : Separated c clock) (inside : n < c.actors) (ready : Ready σ .role)
    (reads : ReadsFrom σ .role coll) (ticked : Ticked c clock n i role coll) (length : i + (rest.length + 1) = c.ticks)
    (following : rest = List.range' (i + 1) rest.length) (raises : i % max c.mutateEvery 1 = 0) :
    ∃ stage t' σ' coll', (advance c n (.ticking role (i :: rest)) t).run σ = ((stage, t'), σ') ∧
      Called c clock n σ σ' coll coll' (.ticking role (i :: rest)) stage t t' := by
  let raised : Entity := { role with body := levelUp role.body }
  have more : changes c (i + 1) = changes c i + 1 := by simp [changes_succ, raises]
  have level : raised.body = .role (actorName (actorId n)) (UInt32.ofNat (changes c (i + 1))) 0 := by
    simp [raised, ticked.body, levelUp, more, UInt32.ofNat_add]
  have kind : raised.kind = .role := by rw [Entity.kind, level]; rfl
  have consistent : Consistent raised (some (Value.ofPairs (role.audit.pairs ++ role.body.fields))) :=
    ⟨ticked.consistent.tracks, ticked.consistent.fits, by simp [level, Body.WellFormed]⟩
  have differs : ¬SameContent raised (some (Value.ofPairs (role.audit.pairs ++ role.body.fields))) := by
    rw [ticked.body]
    refine Entity.not_sameContent_of_level level (fun same => ?_) consistent.fits
    have wrapped := congrArg UInt32.toNat same
    simp [more] at wrapped
    omega
  have separates : Fingerprint.Separates (Value.ofPairs (raised.audit.pairs ++ raised.body.fields))
      (Value.ofPairs (role.audit.pairs ++ role.body.fields)) := by
    have below : changes c i < c.expectedSavesPerActor := by
      rw [← changes_ticks]
      have := changes_mono (c := c) (show i + 1 ≤ c.ticks by omega)
      omega
    rw [Fingerprint.separates_congr (ticked.stablePart _) (ticked.stablePart _), level, ticked.body, more]
    exact separated n inside (changes c i) below
  obtain ⟨fingerprint, fingerprinted, checked⟩ := consistent.checked
  have dirty : (raised.audit.baseline != some fingerprint) = true := by
    have unsaved := (consistent.sameContent_iff fingerprinted fun last known => by cases known; exact separates).not.mp
      differs
    simpa using unsaved
  obtain ⟨σ', saved, -, -, -⟩ := run_update_saved (kind ▸ ready) (by rw [kind]; rfl) consistent.wellFormed
    consistent.fits checked dirty
  have count : (({ raised with audit := raised.audit.markUpdated (raised.audit.nextUpdateStamp σ.2.clock) } :
      Entity).markSaved fingerprint).audit.updateCount.toNat = changes c (i + 1) := by
    simp only [Entity.markSaved_audit, Audit.updateCount_markUpdated consistent.fits]
    rw [more, ← ticked.count]
  have fits : changes c (i + 1) ≤ 9223372036854775807 := by
    have := changes_le c (i + 1)
    omega
  have stored : raised.id = actorId n := ticked.id
  obtain ⟨coll', reads', lookups, ready', opened, fixed, consistent'⟩ :=
    Written.stores consistent (by rw [kind]; rfl) (kind ▸ ready) (kind ▸ reads)
      (.inr (stored ▸ Collection.contains_of_lookup ticked.stored)) (.update saved) (Entity.document_eq (count ▸ fits))
  rw [kind] at reads' ready' opened
  have before : c.ticks - (rest.length + 1) = i := by omega
  have after : c.ticks - rest.length = i + 1 := by omega
  have ran : (advance c n (.ticking role (i :: rest)) t).run σ = _ :=
    run_advance_tick (run_tick_saved (by rw [if_pos raises]; exact saved))
  refine ⟨_, _, σ', coll', ran, ready', reads', fixed, opened, fun k other => ?_, ⟨i + 1, by omega, following, ?_⟩,
    by simp [Stage.remaining], by simp only [Stage.ticked, List.length_cons, before, after, more]; omega, ?_, rfl⟩
  · rw [lookups, if_neg (by rwa [stored])]
  · refine ⟨by simpa using level, by simpa [Audit.markUpdated] using ticked.id,
      by simpa [Audit.markUpdated] using ticked.createTime, by simpa [Audit.markUpdated] using ticked.deleteTime,
      by simpa [Audit.markUpdated] using ticked.live, count, consistent', ?_⟩
    rw [lookups, if_pos stored.symm]
  · have below := changes_le c i
    simp only [Stage.ticked, List.length_cons, before, after, more]
    omega

/-- One store call of actor `n`, from any stage with calls left: the step keeps the store ready and
reading from a collection that changed only under the actor's id, the stage still holds, one call
fewer is left, and the tally moved by the ticks taken. -/
theorem called {stage : Stage} (small : c.ticks < 2 ^ 32) (separated : Separated c clock) (inside : n < c.actors)
    (ready : Ready σ .role) (reads : ReadsFrom σ .role coll) (opened : stage ≠ .load → ∃ h, Opened σ.1 .role h)
    (upsert : σ.1.config.upsert = true) (clocked : σ.2.clock = clock) (holds : stage.Holds c clock n coll)
    (going : 0 < stage.remaining c) :
    ∃ stage' t' σ' coll', (advance c n stage t).run σ = ((stage', t'), σ') ∧
      Called c clock n σ σ' coll coll' stage stage' t t' := by
  cases stage with
  | load =>
    obtain ⟨stage', t', σ', ran, step⟩ := called_load (t := t) ready reads holds
    exact ⟨stage', t', σ', coll, ran, step⟩
  | add role => exact called_add ready reads upsert clocked holds
  | ticking role rest =>
    cases rest with
    | nil => simp [Stage.remaining] at going
    | cons i rest =>
      obtain ⟨first, length, range, ticked⟩ := holds
      rw [List.length_cons, List.range'_succ, List.cons.injEq] at range
      obtain ⟨rfl, following⟩ := range
      rw [List.length_cons] at length
      by_cases raises : i % max c.mutateEvery 1 = 0
      · exact called_change small separated inside ready reads ticked length following raises
      · exact called_skip ready reads (opened nofun) ticked length following raises
  | stopped => exact holds.elim

end Calls

end Stress

end GameVault
