import Mathlib
import GameVault.Proofs.Stress.Calls
import GameVault.Proofs.Value.CanonicalOrder

namespace GameVault

open Database Store

namespace Stress

variable {c : StressConfig} {n : Nat} {t : StressTally} {σ σ' : Store × World}

namespace Progress

variable {p : Progress} {stage : Stage} {m : Nat}

@[simp] theorem start_stages : start.stages n = .load := rfl

@[simp] theorem start_tally : start.tally = {} := rfl

@[simp] theorem next_stages_self : (p.next n stage t).stages n = stage := if_pos rfl

@[simp] theorem next_stages_of_ne (other : m ≠ n) : (p.next n stage t).stages m = p.stages m := if_neg other

@[simp] theorem next_tally : (p.next n stage t).tally = t := rfl

theorem next_self : p.next n (p.stages n) p.tally = p := by
  cases p
  simp only [next, mk.injEq, and_true]
  funext m
  split_ifs with same
  · rw [same]
  · rfl

theorem next_next {stage' : Stage} {t' : StressTally} : (p.next n stage t).next n stage' t' = p.next n stage' t' := by
  simp only [next, mk.injEq, and_true]
  funext m
  split_ifs <;> rfl

theorem sum_next (p : Progress) (stage : Stage) (t : StressTally) (f : Stage → Nat) {s : Finset Nat} (inside : n ∈ s) :
    (∑ m ∈ s, f ((p.next n stage t).stages m)) + f (p.stages n) = (∑ m ∈ s, f (p.stages m)) + f stage := by
  rw [← Finset.add_sum_erase s _ inside, ← Finset.add_sum_erase s _ inside, next_stages_self,
    Finset.sum_congr rfl fun m member => by rw [next_stages_of_ne (Finset.ne_of_mem_erase member)]]
  omega

end Progress

theorem actorId_injective {m n : Nat} (hm : m < 2 ^ 64) (hn : n < 2 ^ 64) (same : actorId m = actorId n) : m = n := by
  have bits := congrArg (fun id => id.toBitVec.toNat) same
  simp [actorId] at bits
  omega

/-- A stage holds of every collection that holds what the actor's id holds. -/
theorem Stage.Holds.frame {clock : Int64} {coll coll' : Collection} {stage : Stage}
    (holds : stage.Holds c clock n coll) (same : coll'.lookup (actorId n) = coll.lookup (actorId n)) :
    stage.Holds c clock n coll' := by
  cases stage with
  | load => exact same.trans holds
  | add role => exact ⟨holds.1, holds.2.1, same.trans holds.2.2⟩
  | ticking role rest =>
    obtain ⟨i, length, range, ticked⟩ := holds
    exact ⟨i, length, range, { ticked with stored := same.trans ticked.stored }⟩
  | stopped => exact holds

/-- What holds between the actors' store calls, under any schedule: the store stays ready to upsert
roles at its clock and reads them from a collection that holds nothing but the actors' roles, each
actor's stage holds of that collection, and the tally counts one save for each change the actors
made and one skip for each other tick. -/
structure Accounted (c : StressConfig) (clock : Int64) (σ : Store × World) (coll : Collection) (p : Progress) :
    Prop where
  ready : Ready σ .role
  reads : ReadsFrom σ .role coll
  upsert : σ.1.config.upsert = true
  clocked : σ.2.clock = clock
  opened : (∃ n, p.stages n ≠ .load) → ∃ h, Opened σ.1 .role h
  holds : ∀ n < c.actors, (p.stages n).Holds c clock n coll
  others : ∀ k, (∀ n < c.actors, k ≠ actorId n) → coll.lookup k = none
  saved : p.tally.saved = ∑ n ∈ Finset.range c.actors, changes c ((p.stages n).ticked c)
  skipped : p.tally.skipped =
    ∑ n ∈ Finset.range c.actors, ((p.stages n).ticked c - changes c ((p.stages n).ticked c))
  failed : p.tally.failed = 0

section Schedule

variable {clock : Int64} {coll : Collection} {p : Progress}

theorem accounted_start (ready : Ready σ .role) (reads : ReadsFrom σ .role {}) (upsert : σ.1.config.upsert = true) :
    Accounted c σ.2.clock σ {} Progress.start :=
  ⟨ready, reads, upsert, rfl, fun ⟨_, moved⟩ => absurd rfl moved, fun _ _ => rfl, fun _ _ => rfl, by simp [Progress.start, Stage.ticked, changes],
    by simp [Progress.start, Stage.ticked], rfl⟩

/-- One call of actor `n` keeps the account: its stage holds anew, the other actors' stages hold of
the new collection since their ids hold what they held, and the tally moved by that actor's ticks. -/
theorem Accounted.next (small : c.ticks < 2 ^ 32) (separated : Separated c clock) (few : c.actors < 2 ^ 64)
    (inside : n < c.actors) (accounted : Accounted c clock σ coll p) (going : 0 < (p.stages n).remaining c) :
    ∃ stage t σ' coll', (advance c n (p.stages n) p.tally).run σ = ((stage, t), σ') ∧
      Accounted c clock σ' coll' (p.next n stage t) ∧ stage.remaining c + 1 = (p.stages n).remaining c := by
  obtain ⟨stage, t, σ', coll', ran, step⟩ := called small separated inside accounted.ready accounted.reads
    (fun moved => accounted.opened ⟨n, moved⟩) accounted.upsert accounted.clocked (accounted.holds n inside) going
  have member : n ∈ Finset.range c.actors := Finset.mem_range.mpr inside
  refine ⟨stage, t, σ', coll', ran, ⟨step.ready, step.reads, step.fixed.config ▸ accounted.upsert,
    step.fixed.clock.trans accounted.clocked, fun _ => step.opened, fun m below => ?_, fun k others => ?_, ?_, ?_, ?_⟩,
    step.remaining⟩
  · by_cases same : m = n
    · subst same
      simpa using step.holds
    · rw [Progress.next_stages_of_ne same]
      exact (accounted.holds m below).frame
        (step.frame _ fun ids => same (actorId_injective (by omega) (by omega) ids))
  · rw [step.frame k (others n inside)]
    exact accounted.others k others
  · have sums := Progress.sum_next p stage t (fun s => changes c (s.ticked c)) member
    have moved := step.saved
    rw [Progress.next_tally]
    rw [← accounted.saved] at sums
    omega
  · have sums := Progress.sum_next p stage t (fun s => s.ticked c - changes c (s.ticked c)) member
    have moved := step.skipped
    rw [Progress.next_tally]
    rw [← accounted.skipped] at sums
    omega
  · rw [Progress.next_tally, step.failed, accounted.failed]

theorem run_interleave_cons {rest : List Nat} {stage : Stage} {t' : StressTally}
    (ran : (advance c n (p.stages n) p.tally).run σ = ((stage, t'), σ')) :
    (interleave c (n :: rest) p).run σ = (interleave c rest (p.next n stage t')).run σ' := by
  simp only [interleave, StateT.run_bind, ran]
  rfl

/-- A whole schedule keeps the account, provided it names only actors and each no more often than it
has calls left; each actor then has as many calls fewer as the schedule named it. -/
theorem Accounted.interleave (small : c.ticks < 2 ^ 32) (separated : Separated c clock) (few : c.actors < 2 ^ 64) :
    ∀ (schedule : List Nat) (p : Progress) (σ : Store × World) (coll : Collection), Accounted c clock σ coll p →
      (∀ n ∈ schedule, n < c.actors) → (∀ n, schedule.count n ≤ (p.stages n).remaining c) →
      ∃ p' σ' coll', (interleave c schedule p).run σ = (p', σ') ∧ Accounted c clock σ' coll' p' ∧
        ∀ n, (p'.stages n).remaining c + schedule.count n = (p.stages n).remaining c
  | [], p, σ, coll, accounted, _, _ => ⟨p, σ, coll, rfl, accounted, fun _ => rfl⟩
  | n :: rest, p, σ, coll, accounted, actors, left => by
    have inside := actors n List.mem_cons_self
    have going : 0 < (p.stages n).remaining c := by
      have := left n
      rw [List.count_cons_self] at this
      omega
    obtain ⟨stage, t, σ₁, coll₁, ran, accounted₁, fewer⟩ := accounted.next small separated few inside going
    have left₁ : ∀ m, rest.count m ≤ ((p.next n stage t).stages m).remaining c := by
      intro m
      have := left m
      by_cases same : m = n
      · subst same
        rw [List.count_cons_self] at this
        rw [Progress.next_stages_self]
        omega
      · rw [List.count_cons_of_ne (Ne.symm same)] at this
        rwa [Progress.next_stages_of_ne same]
    obtain ⟨p', σ', coll', ran', accounted', remaining⟩ :=
      Accounted.interleave small separated few rest _ σ₁ coll₁ accounted₁ (fun m member => actors m (.tail _ member)) left₁
    refine ⟨p', σ', coll', (run_interleave_cons ran).trans ran', accounted', fun m => ?_⟩
    have := remaining m
    by_cases same : m = n
    · subst same
      rw [Progress.next_stages_self] at this
      rw [List.count_cons_self]
      omega
    · rw [Progress.next_stages_of_ne same] at this
      rwa [List.count_cons_of_ne (Ne.symm same)]

end Schedule

theorem count_range_flatMap_replicate (a k n : Nat) :
    ((List.range a).flatMap fun m => List.replicate k m).count n = if n < a then k else 0 := by
  induction a with
  | zero => simp
  | succ a ih =>
    rw [List.range_succ, List.flatMap_append, List.count_append, ih]
    simp [List.count_replicate]
    split_ifs <;> omega

theorem count_inTurn (c : StressConfig) (n : Nat) :
    (inTurn c).count n = if n < c.actors then c.ticks + 2 else 0 :=
  count_range_flatMap_replicate _ _ _

theorem lt_of_mem_inTurn (member : n ∈ inTurn c) : n < c.actors := by
  have named := List.count_pos_iff.mpr member
  rw [count_inTurn] at named
  split_ifs at named with inside
  · exact inside
  · omega

/-- An actor with no calls left has taken all its ticks. -/
theorem Stage.Holds.finished {clock : Int64} {coll : Collection} {stage : Stage} (holds : stage.Holds c clock n coll)
    (done : stage.remaining c = 0) : ∃ role, stage = .ticking role [] ∧ Ticked c clock n c.ticks role coll := by
  cases stage with
  | load => simp [Stage.remaining] at done
  | add role => simp [Stage.remaining] at done
  | ticking role rest =>
    obtain ⟨i, length, -, ticked⟩ := holds
    rw [Stage.remaining, List.length_eq_zero_iff] at done
    subst done
    rw [List.length_nil, Nat.add_zero] at length
    subst length
    exact ⟨role, rfl, ticked⟩
  | stopped => exact holds.elim

/-- Under every schedule that gives each actor all its calls, in any order, the account holds at the
end and every actor has taken all its ticks. -/
theorem interleave_finishes (small : c.ticks < 2 ^ 32) (few : c.actors < 2 ^ 64) (ready : Ready σ .role)
    (fresh : ReadsFrom σ .role {}) (upsert : σ.1.config.upsert = true) (separated : Separated c σ.2.clock)
    {schedule : List Nat} (interleaved : schedule.Perm (inTurn c)) :
    ∃ p σ' coll, (interleave c schedule Progress.start).run σ = (p, σ') ∧ Accounted c σ.2.clock σ' coll p ∧
      ∀ n < c.actors, ∃ role, p.stages n = .ticking role [] ∧ Ticked c σ.2.clock n c.ticks role coll := by
  have counted : ∀ n, schedule.count n = if n < c.actors then c.ticks + 2 else 0 := fun n => by
    rw [interleaved.count_eq, count_inTurn]
  obtain ⟨p, σ', coll, ran, accounted, remaining⟩ :=
    Accounted.interleave small separated few schedule _ σ {} (accounted_start ready fresh upsert)
      (fun n member => lt_of_mem_inTurn (interleaved.mem_iff.mp member))
      (fun n => by rw [counted]; split_ifs <;> simp [Stage.remaining])
  refine ⟨p, σ', coll, ran, accounted, fun n inside => (accounted.holds n inside).finished ?_⟩
  have left := remaining n
  rw [counted, if_pos inside, Progress.start_stages, Stage.remaining] at left
  omega

theorem interleave_append (s₁ s₂ : List Nat) (p : Progress) :
    interleave c (s₁ ++ s₂) p = interleave c s₁ p >>= interleave c s₂ := by
  induction s₁ generalizing p with
  | nil => simp [interleave]
  | cons n rest ih => simp [interleave, ih]

theorem interleave_replicate (k : Nat) (p : Progress) :
    interleave c (List.replicate k n) p = (fun r => p.next n r.1 r.2) <$> calls c n k (p.stages n) p.tally := by
  induction k generalizing p with
  | zero => simp [interleave, calls, Progress.next_self]
  | succ k ih => simp [List.replicate_succ, interleave, calls, ih, Progress.next_next]

theorem foldlM_actor_eq_interleave : ∀ (actors : List Nat) (p : Progress), actors.Nodup →
    (∀ n ∈ actors, p.stages n = .load) →
    actors.foldlM (actor c) p.tally =
      Progress.tally <$> interleave c (actors.flatMap fun n => List.replicate (c.ticks + 2) n) p
  | [], p, _, _ => by simp [interleave]
  | n :: rest, p, distinct, fresh => by
    rw [List.nodup_cons] at distinct
    have later : ∀ stage t, ∀ m ∈ rest, (p.next n stage t).stages m = .load := fun stage t m member => by
      rw [Progress.next_stages_of_ne fun same : m = n => distinct.1 (same ▸ member)]
      exact fresh m (.tail _ member)
    simp only [List.foldlM_cons, List.flatMap_cons, interleave_append, interleave_replicate, fresh n List.mem_cons_self,
      actor, map_bind, bind_map_left, bind_assoc, pure_bind]
    congr 1
    funext r
    exact foldlM_actor_eq_interleave rest _ distinct.2 (later r.1 r.2)

theorem Ticked.marksLive {clock : Int64} {coll : Collection} {i : Nat} {role : Entity}
    (ticked : Ticked c clock n i role coll) :
    Filter.marksLive (Value.ofPairs (role.audit.pairs ++ role.body.fields)) = true :=
  (marksLive_iff (hydrate_saved ticked.consistent ticked.consistent.document)).mpr
    ⟨Entity.document_marked _ _, ticked.live⟩

/-- A valid collection that holds a live document under each of `a` actors' ids and nothing under
any other id holds `a` live documents. -/
theorem length_live_of_actors {coll : Collection} {a : Nat} (valid : coll.Valid) (few : a < 2 ^ 64)
    (others : ∀ k, (∀ n < a, k ≠ actorId n) → coll.lookup k = none)
    (actors : ∀ n < a, ∃ doc, coll.lookup (actorId n) = some doc ∧ Filter.marksLive doc = true) :
    (coll.live .all).length = a := by
  have owned : ∀ k doc, (k, doc) ∈ coll.documents → ∃ n < a, k = actorId n := by
    intro k doc member
    by_contra unowned
    have found := valid.lookup_of_mem member
    rw [others k fun n below same => unowned ⟨n, below, same⟩] at found
    cases found
  have live : coll.live .all = coll.values := by
    refine List.filter_eq_self.mpr fun doc stored => ?_
    obtain ⟨⟨k, doc⟩, member, rfl⟩ := List.mem_map.mp stored
    obtain ⟨n, below, rfl⟩ := owned k doc member
    obtain ⟨doc', found, marked⟩ := actors n below
    rw [valid.lookup_of_mem member] at found
    cases found
    rw [Filter.admits_active, marked, Bool.true_and]
    rfl
  have ids : (coll.documents.map (·.1)).Perm ((List.range a).map actorId) := by
    refine (List.perm_ext_iff_of_nodup ?_ ?_).mpr fun k => ?_
    · exact valid.increasing.imp fun below same => (Int.ne_of_lt below) (congrArg Int64.toInt same)
    · exact List.nodup_range.map_on fun m inside n inside' same =>
        actorId_injective (by simp at inside; omega) (by simp at inside'; omega) same
    · simp only [List.mem_map, List.mem_range, Prod.exists, exists_and_right, exists_eq_right]
      constructor
      · rintro ⟨doc, member⟩
        obtain ⟨n, below, rfl⟩ := owned k doc member
        exact ⟨n, below, rfl⟩
      · rintro ⟨n, below, rfl⟩
        obtain ⟨doc, found, -⟩ := actors n below
        exact ⟨doc, Collection.lookup_eq_some found⟩
  rw [live, Collection.values, List.length_map, ← List.length_map (·.1), ids.length_eq, List.length_map,
    List.length_range]

/-- What a stress run of `c` leaves, with the tally `t`, in the state `σ`: no update failed, each
actor saved once for each change and skipped its other ticks, so the report counts every tick; and
the store reads each actor's role back at the level and update count of its changes, with one live
role per actor. -/
structure Ran (c : StressConfig) (t : StressTally) (σ : Store × World) : Prop where
  saved : t.saved = c.actors * c.expectedSavesPerActor
  skipped : t.skipped = c.actors * (c.ticks - c.expectedSavesPerActor)
  failed : t.failed = 0
  report : ∀ d : Duration, (StressReport.of t d).failedOps = 0 ∧ (StressReport.of t d).totalOps = c.actors * c.ticks ∧
    (StressReport.of t d).savedOps = c.actors * c.expectedSavesPerActor ∧
    (StressReport.of t d).skippedOps = (StressReport.of t d).totalOps - (StressReport.of t d).savedOps
  roles : ∀ n < c.actors, ∃ role, ((Store.load .role (actorId n) none).run.run σ).1 = .ok role ∧
    role.audit.updateCount.toNat = c.expectedSavesPerActor ∧
    ∃ level : UInt32, role.body = .role (actorName (actorId n)) level 0 ∧ level.toNat = c.expectedSavesPerActor
  count : ((Store.count .role .all).run.run σ).1 = .ok c.actors

/-- A finished account is a finished run: every actor took all its ticks, so the tally is the sum
of each actor's changes and other ticks, and the store holds each actor's role as last saved. -/
theorem Accounted.ran {clock : Int64} {coll : Collection} {p : Progress} (small : c.ticks < 2 ^ 32)
    (few : c.actors < 2 ^ 64) (total : c.actors * c.ticks < 2 ^ 64) (accounted : Accounted c clock σ coll p)
    (finished : ∀ n < c.actors, ∃ role, p.stages n = .ticking role [] ∧ Ticked c clock n c.ticks role coll) :
    Ran c p.tally σ := by
  have ticked : ∀ n ∈ Finset.range c.actors, (p.stages n).ticked c = c.ticks := fun n member => by
    obtain ⟨role, done, -⟩ := finished n (Finset.mem_range.mp member)
    simp [done, Stage.ticked]
  have saved : p.tally.saved = c.actors * c.expectedSavesPerActor := by
    rw [accounted.saved, Finset.sum_congr rfl fun n member => by rw [ticked n member], Finset.sum_const,
      Finset.card_range, smul_eq_mul, changes_ticks]
  have skipped : p.tally.skipped = c.actors * (c.ticks - c.expectedSavesPerActor) := by
    rw [accounted.skipped, Finset.sum_congr rfl fun n member => by rw [ticked n member], Finset.sum_const,
      Finset.card_range, smul_eq_mul, changes_ticks]
  have below : c.expectedSavesPerActor ≤ c.ticks := changes_ticks c ▸ changes_le c c.ticks
  refine ⟨saved, skipped, accounted.failed, fun d => ?_, fun n inside => ?_, ?_⟩
  · have all : p.tally.saved + p.tally.skipped + p.tally.failed = c.actors * c.ticks := by
      rw [saved, skipped, accounted.failed, Nat.add_zero, ← Nat.mul_add, Nat.add_sub_cancel' below]
    have fits : c.actors * c.ticks < 18446744073709551616 := by omega
    have totalOps : (StressReport.of p.tally d).totalOps = c.actors * c.ticks := by
      simp only [StressReport.of, all, Nat.mod_eq_of_lt fits]
    refine ⟨accounted.failed, totalOps, saved, ?_⟩
    rw [totalOps]
    show p.tally.skipped = _ - p.tally.saved
    rw [skipped, saved, Nat.mul_sub]
  · obtain ⟨role, -, ticked⟩ := finished n inside
    have kind : role.kind = .role := by rw [Entity.kind, ticked.body]; rfl
    obtain ⟨role', loaded, restored, -⟩ := (reloads_saved (kind ▸ accounted.ready) (by rw [kind]; rfl)
      (kind ▸ accounted.reads) ticked.consistent ticked.consistent.document
      (by rw [Entity.id, ticked.id]; exact ticked.stored)).load none
    rw [kind, Entity.id, ticked.id] at loaded
    refine ⟨role', loaded, by rw [restored.audit, ticked.count, changes_ticks], UInt32.ofNat (changes c c.ticks),
      (ticked.body ▸ restored.body).eq_role, ?_⟩
    rw [UInt32.toNat_ofNat', changes_ticks]
    omega
  · obtain ⟨h, σ₁, handle, opened, -⟩ := run_collection_open accounted.ready rfl
    obtain ⟨h', σ₁', handle', -, held⟩ := accounted.reads
    rw [handle] at handle'
    cases handle'
    rw [count_answer handle opened, held, length_live_of_actors (accounted.reads.valid accounted.ready) few
      accounted.others fun n inside => ?_]
    obtain ⟨role, -, ticked⟩ := finished n inside
    exact ⟨_, ticked.stored, ticked.marksLive⟩

/-- The actors one after another are the schedule in which they take turns. -/
theorem run_eq_interleave (c : StressConfig) : run c = Progress.tally <$> interleave c (inTurn c) Progress.start :=
  foldlM_actor_eq_interleave (List.range c.actors) Progress.start List.nodup_range fun _ _ => rfl

/-- Stress runs write exactly the changes, in whatever order the actors' store calls interleave.
Take a store that is ready for roles, upserts, and reads them from an empty collection; fewer than
2^32 ticks, and a number of actors and of ticks in all that fit a 64-bit word; and a hash that tells
apart the documents of an actor's role at consecutive levels. Then under every schedule that gives
each actor all its calls, each store call one step, and for the actors run one after another: no
update fails, each actor saves once for each change and skips its other ticks, the report counts
every tick, and the store reads each actor's role back with the level and update count of its
changes, one live role per actor. -/
theorem writes_exactly_the_changes {c : StressConfig} (ready : Ready σ .role) (fresh : ReadsFrom σ .role {})
    (upsert : σ.1.config.upsert = true) (small : c.ticks < 2 ^ 32) (few : c.actors < 2 ^ 64)
    (total : c.actors * c.ticks < 2 ^ 64) (separated : Separated c σ.2.clock) :
    (∀ schedule : List Nat, schedule.Perm (inTurn c) →
      Ran c ((interleave c schedule .start).run σ).1.tally ((interleave c schedule .start).run σ).2) ∧
      Ran c ((run c).run σ).1 ((run c).run σ).2 := by
  have everySchedule : ∀ schedule : List Nat, schedule.Perm (inTurn c) →
      Ran c ((interleave c schedule .start).run σ).1.tally ((interleave c schedule .start).run σ).2 := by
    intro schedule interleaved
    obtain ⟨p, σ', coll, ran, accounted, finished⟩ :=
      interleave_finishes small few ready fresh upsert separated interleaved
    rw [ran]
    exact accounted.ran small few total finished
  refine ⟨everySchedule, ?_⟩
  rw [run_eq_interleave]
  exact everySchedule (inTurn c) (List.Perm.refl _)

/-- The hash tells apart what each of two actors stores of its role at levels one and zero, under
the clock of a store that has opened the role collection. -/
theorem first_levels_separated : Separated { actors := 2, ticks := 1 } (roleOpened {}).2.clock := by
  intro n few level below
  have once : ({ actors := 2, ticks := 1 } : StressConfig).expectedSavesPerActor = 1 := by decide
  have first : level = 0 := by omega
  subst first
  apply Fingerprint.separatesBy_of_hashesApart
  have actor : n = 0 ∨ n = 1 := by
    change n < 2 at few
    omega
  rcases actor with rfl | rfl <;>
    simp only [Fingerprint.hashesApart, roleDocument, Value.ofPairs, Value.sortEntries_eq_insertionSort,
      Fingerprint.stablePart, Cbor.encode, Cbor.write, Cbor.writeMap, Cbor.mergeSort_keyBefore_eq] <;>
    decide +kernel

/-- Two actors with one tick each, on a store that has opened the empty role collection: each raises
its role once and saves it once. -/
theorem two_actors_raise_their_roles :
    Separated { actors := 2, ticks := 1 } (roleOpened {}).2.clock ∧
      Ran { actors := 2, ticks := 1 } ((run { actors := 2, ticks := 1 }).run (roleOpened {})).1
        ((run { actors := 2, ticks := 1 }).run (roleOpened {})).2 :=
  ⟨first_levels_separated, (writes_exactly_the_changes (roleOpened_ready {}) (roleOpened_reads {}) rfl (by decide)
    (by decide) (by decide) first_levels_separated).2⟩

end Stress

end GameVault
