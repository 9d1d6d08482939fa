import Mathlib
import GameVault.Proofs.Database.Target
import GameVault.Proofs.Store.Outcomes

namespace GameVault.Database

namespace Collection

/-- A replacement of the document stored under `k`: the replacement, with the id `k` when it has
none. -/
def withId (k : Int64) (r : Value) : Value :=
  if (r.get? idField).isNone then (r.set idField (.int k)).2 else r

/-- What an upsert inserts: the replacement, with the id the filter pins when it has none. -/
def upserted (f : Filter) (r : Value) : Value :=
  if (r.get? idField).isNone then (f.idHint.map fun n => (r.set idField (.int n)).2).getD r else r

variable {name : String} {c : Collection} {f : Filter} {entries : List (Value × Value)}

theorem encodedLength_of_encodable (encodable : (Value.map entries).Encodable) :
    encodedLength name (.map entries) = .ok (Cbor.write (.map entries)).1.length := by
  simp [encodedLength, Cbor.encode_of_encodable encodable]

theorem encodedLength_of_not_encodable (refused : ¬ (Value.map entries).Encodable) :
    ∃ e, encodedLength name (.map entries) = .error (.codec e) := by
  rcases encoded : Cbor.encode (.map entries) with e | bs
  · exact ⟨e, by simp [encodedLength, encoded]⟩
  · exact absurd (Cbor.encode_eq_ok_iff.mp encoded).1 refused

theorem keepId_of_kept {k : Int64} {r : Value} (kept : (r.get? idField).isNone ∨ r.get? idField = some (.int k)) :
    keepId k r = .ok (withId k r) := by
  rcases present : r.get? idField with _ | v
  · simp [keepId, withId, present]
  · have named : v = .int k := by simpa [present] using kept
    subst named
    simp [keepId, withId, present]

theorem keepId_of_other {k : Int64} {r v : Value} (present : r.get? idField = some v) (other : v ≠ .int k) :
    ∃ m, keepId k r = .error (.invalidDocument m) := by
  unfold keepId
  rw [present]
  cases v with
  | int n =>
    have different : n ≠ k := fun same => other (same ▸ rfl)
    exact ⟨_, if_neg different⟩
  | _ => exact ⟨_, rfl⟩

/-- A replacement without a canonical encoding is refused with the encoding's error. -/
theorem replaceOne_unencodable {upsert : Bool} (refused : ¬ (Value.map entries).Encodable) :
    ∃ e, c.replaceOne name f (.map entries) upsert = .error (.codec e) := by
  obtain ⟨e, failed⟩ : ∃ e, encodedLength name (.map entries) = .error (.codec e) :=
    encodedLength_of_not_encodable refused
  exact ⟨e, by simp [replaceOne, failed, bind, Except.bind]⟩

section Targeted

variable {upsert : Bool} {t doc : Value} {k : Int64} (encodable : (Value.map entries).Encodable)
  (targeted : c.target f = some t) (identified : t.get? idField = some (.int k))
include encodable targeted identified

/-- A target is replaced by the replacement kept to its id, unless the two are equal documents. -/
theorem replaceOne_kept (kept : keepId k (.map entries) = .ok doc) :
    c.replaceOne name f (.map entries) upsert =
      .ok (if t == doc then c else { c with documents := replaceByKey k doc c.documents },
        { acknowledged := true, matched := 1, modified := if t == doc then 0 else 1 },
        (Cbor.write (.map entries)).1.length) := by
  have read : idOf name t = .ok k := by simp [idOf, identified]
  by_cases same : (t == doc) = true
  · simp [replaceOne, encodedLength_of_encodable encodable, targeted, read, kept, same, bind, Except.bind,
      pure, Except.pure]
  · simp [replaceOne, encodedLength_of_encodable encodable, targeted, read, kept, same, bind, Except.bind,
      pure, Except.pure]

theorem replaceOne_refused {e : DriverError} (refused : keepId k (.map entries) = .error e) :
    c.replaceOne name f (.map entries) upsert = .error e := by
  have read : idOf name t = .ok k := by simp [idOf, identified]
  simp [replaceOne, encodedLength_of_encodable encodable, targeted, read, refused, bind, Except.bind]

end Targeted

section Untargeted

variable (encodable : (Value.map entries).Encodable) (untargeted : c.target f = none)
include encodable untargeted

theorem replaceOne_upserted {c' : Collection} {id : Int64} {size : Nat}
    (inserted : c.insert name (upserted f (.map entries)) = .ok (c', id, size)) :
    c.replaceOne name f (.map entries) true =
      .ok (c', { acknowledged := true, upsertedId := some id }, (Cbor.write (.map entries)).1.length) := by
  rcases present : (Value.map entries).get? idField with _ | v <;> rcases hint : f.idHint with _ | n <;>
    simp_all [replaceOne, encodedLength_of_encodable encodable, upserted, bind, Except.bind, pure, Except.pure]

theorem replaceOne_upsert_refused {e : DriverError} (refused : c.insert name (upserted f (.map entries)) = .error e) :
    c.replaceOne name f (.map entries) true = .error e := by
  rcases present : (Value.map entries).get? idField with _ | v <;> rcases hint : f.idHint with _ | n <;>
    simp_all [replaceOne, encodedLength_of_encodable encodable, upserted, bind, Except.bind]

theorem replaceOne_untargeted :
    c.replaceOne name f (.map entries) false = .ok (c, { acknowledged := true }, (Cbor.write (.map entries)).1.length) := by
  simp [replaceOne, encodedLength_of_encodable encodable, untargeted, bind, Except.bind, pure, Except.pure]

end Untargeted

/-- A replacement changes one document, inserts one or does nothing. -/
theorem written_replaceOne {doc : Value} {upsert : Bool} {c' : Collection} {o : ReplaceOutcome} {bytes : Nat}
    (ok : c.replaceOne name f doc upsert = .ok (c', o, bytes)) : o.written ≤ 1 := by
  obtain ⟨n, -, rest⟩ := except_bind_eq_ok.mp ok
  rcases targeted : c.target f with _ | current <;> simp only [targeted] at rest
  · by_cases up : upsert
    · simp only [up, if_true] at rest
      obtain ⟨⟨c'', id, size⟩, -, rest⟩ := except_bind_eq_ok.mp rest
      simp only [pure, Except.pure, Except.ok.injEq, Prod.mk.injEq] at rest
      obtain ⟨-, rfl, -⟩ := rest
      simp [ReplaceOutcome.written]
    · simp only [up, Bool.false_eq_true, if_false, pure, Except.pure, Except.ok.injEq, Prod.mk.injEq] at rest
      obtain ⟨-, rfl, -⟩ := rest
      simp [ReplaceOutcome.written]
  · obtain ⟨id, -, rest⟩ := except_bind_eq_ok.mp rest
    obtain ⟨doc', -, rest⟩ := except_bind_eq_ok.mp rest
    simp only [pure, Except.pure, Except.ok.injEq, Prod.mk.injEq] at rest
    obtain ⟨-, rfl, -⟩ := rest
    simp only [ReplaceOutcome.written]
    split <;> simp

end Collection

section Handle

variable {w : World} {h : Handle} {f : Filter} {doc : Value} {upsert : Bool}

theorem run_replaceOne_closed (closed : (w.connection h.connection).closed = true) :
    (h.replaceOne f doc upsert).run.run w = (.error .closed, w) := by
  simp [Handle.replaceOne, ensureOpen, closed, ExceptT.run_bind]
  rfl

theorem run_replaceOne_refused {e : DriverError} (opened : (w.connection h.connection).closed = false)
    (refused : (w.collection h.slot).replaceOne h.name f doc upsert = .error e) :
    (h.replaceOne f doc upsert).run.run w = (.error e, w) := by
  simp [Handle.replaceOne, ensureOpen, Handle.current, opened, refused, ExceptT.run_bind]
  rfl

theorem run_replaceOne_answer (inside : h.slot < w.slots.size) (opened : (w.connection h.connection).closed = false)
    {c : Collection} {o : ReplaceOutcome} {bytes : Nat}
    (replaced : (w.collection h.slot).replaceOne h.name f doc upsert = .ok (c, o, bytes)) :
    ((h.replaceOne f doc upsert).run.run w).1 = .ok (if (w.connection h.connection).acknowledged then o else {}) ∧
      ((h.replaceOne f doc upsert).run.run w).2.collection h.slot = c := by
  rw [run_replaceOne opened replaced]
  exact ⟨rfl, by simp [World.collection_setCollection_self inside]⟩

/-- No replacement through a handle writes more than one document. -/
theorem written_run_replaceOne {o : ReplaceOutcome} {w' : World}
    (ran : (h.replaceOne f doc upsert).run.run w = (.ok o, w')) : o.written ≤ 1 := by
  obtain ⟨c, o', bytes, replaced, -⟩ := Handle.replaceOne_eq_ok ran
  by_cases closed : (w.connection h.connection).closed
  · rw [run_replaceOne_closed closed] at ran
    cases ran
  rw [run_replaceOne (Bool.not_eq_true _ ▸ closed) replaced] at ran
  injection ran with answer
  injection answer with answer
  subst answer
  split
  · exact Collection.written_replaceOne replaced
  · simp [ReplaceOutcome.written]

end Handle

/-- A replacement meets its reference specification, from every world whose collections keep their
invariant, through every handle on a stored collection, for every filter, map replacement and
choice of upsert. A closed connection refuses, and so does a replacement without a canonical
encoding, changing nothing. Otherwise, when the filter admits a stored document, the first in order
of id, the replacement must carry no id or that document's id, or it is refused and nothing changes;
the document is then replaced by the replacement with its id filled in, unless the two are equal
documents, and the answer matches one document and says whether it changed. With no such document
an upsert inserts the replacement, its id filled from the filter when it has none, and answers the
inserted id, while a failed insert changes nothing; without upsert nothing changes. Where writes are
not acknowledged the effect is the same and the answer is the empty outcome; and no answer counts
more than one document written. -/
theorem replace_one_meets_reference (w : World) (valid : w.Valid) (h : Handle) (inside : h.slot < w.slots.size)
    (f : Filter) (entries : List (Value × Value)) (upsert : Bool) :
    let r : Value := .map entries
    let c := w.collection h.slot
    let acknowledged := (w.connection h.connection).acknowledged
    let run := (h.replaceOne f r upsert).run.run w
    ((w.connection h.connection).closed = true → run = (.error .closed, w)) ∧
    ((w.connection h.connection).closed = false →
      (¬ r.Encodable → ∃ e, run = (.error (.codec e), w)) ∧
      (r.Encodable →
        (∀ t k, c.values.find? f.admits = some t → t.get? idField = some (.int k) →
          (∀ v, r.get? idField = some v → v ≠ .int k → ∃ m, run = (.error (.invalidDocument m), w)) ∧
          ((r.get? idField).isNone ∨ r.get? idField = some (.int k) →
            run.1 = .ok (if acknowledged then
              { acknowledged := true, matched := 1, modified := if t == Collection.withId k r then 0 else 1 }
              else {}) ∧
            run.2.collection h.slot = if t == Collection.withId k r then c
              else { c with documents := replaceByKey k (Collection.withId k r) c.documents })) ∧
        (c.values.find? f.admits = none → upsert = true →
          (∀ c' k bytes, c.insert h.name (Collection.upserted f r) = .ok (c', k, bytes) →
            run.1 = .ok (if acknowledged then { acknowledged := true, upsertedId := some k } else {}) ∧
              run.2.collection h.slot = c') ∧
          ∀ e, c.insert h.name (Collection.upserted f r) = .error e → run = (.error e, w)) ∧
        (c.values.find? f.admits = none → upsert = false →
          run.1 = .ok (if acknowledged then { acknowledged := true } else {}) ∧ run.2.collection h.slot = c))) ∧
    ∀ o w', run = (.ok o, w') → o.written ≤ 1 := by
  intro r c acknowledged run
  have target : c.target f = c.values.find? f.admits := Collection.target_eq_find (valid.collection h.slot) f
  refine ⟨run_replaceOne_closed, fun opened => ⟨fun refused => ?_, fun encodable => ⟨?_, ?_, ?_⟩⟩,
    fun o w' ran => written_run_replaceOne ran⟩
  · obtain ⟨e, failed⟩ : ∃ e, c.replaceOne h.name f (.map entries) upsert = .error (.codec e) :=
      Collection.replaceOne_unencodable refused
    exact ⟨e, run_replaceOne_refused opened failed⟩
  · intro t k found identified
    have targeted : c.target f = some t := target.trans found
    refine ⟨fun v present other => ?_, fun kept => ?_⟩
    · obtain ⟨m, refused⟩ := Collection.keepId_of_other present other
      exact ⟨m, run_replaceOne_refused opened (Collection.replaceOne_refused encodable targeted identified refused)⟩
    · exact run_replaceOne_answer inside opened
        (Collection.replaceOne_kept encodable targeted identified (Collection.keepId_of_kept kept))
  · intro untargeted upserting
    subst upserting
    have none : c.target f = none := target.trans untargeted
    exact ⟨fun c' k bytes inserted =>
        run_replaceOne_answer inside opened (Collection.replaceOne_upserted encodable none inserted),
      fun e refused => run_replaceOne_refused opened (Collection.replaceOne_upsert_refused encodable none refused)⟩
  · intro untargeted notUpserting
    subst notUpserting
    exact run_replaceOne_answer inside opened (Collection.replaceOne_untargeted encodable (target.trans untargeted))

/-- One open connection that acknowledges writes, and one collection holding the document `{id: 1}`. -/
def oneDocumentWorld : World :=
  { connections := #[{ database := ⟨0, "localhost", "game"⟩, acknowledged := true }],
    slots := #[{ documents := [(1, .map [(.text "id", .int 1)])] }] }

theorem oneDocumentWorld_valid : oneDocumentWorld.Valid := by
  intro c member
  simp only [oneDocumentWorld, List.mem_toArray, List.mem_singleton] at member
  subst member
  refine ⟨fun p stored => ?_, by simp, by simp⟩
  simp only [List.mem_singleton] at stored
  subst stored
  exact ⟨⟨_, rfl⟩, rfl, by decide⟩

/-- Replacing `{id: 1}` by `{id: 1, level: 2}` through the id filter changes the stored document. -/
theorem replace_one_on_one_document :
    oneDocumentWorld.Valid ∧ 0 < oneDocumentWorld.slots.size ∧
      (((⟨0, 0, "c"⟩ : Handle).replaceOne (Filter.byId 1) (.map [(.text "id", .int 1), (.text "level", .int 2)])
        false).run.run oneDocumentWorld).1 = .ok { acknowledged := true, matched := 1, modified := 1 } := by
  have spec := replace_one_meets_reference oneDocumentWorld oneDocumentWorld_valid ⟨0, 0, "c"⟩ (by decide)
    (Filter.byId 1) [(.text "id", .int 1), (.text "level", .int 2)] false
  have found : (oneDocumentWorld.collection 0).values.find? (Filter.byId 1).admits =
      some (.map [(.text "id", .int 1)]) := by
    simp [oneDocumentWorld, World.collection, Collection.values,
      admits_byId (show (Value.map [(.text "id", .int 1)]).get? idField = some (.int 1) from rfl)]
  obtain ⟨-, kept⟩ := ((spec.2.1 rfl).2 (by decide)).1 _ 1 found rfl
  refine ⟨oneDocumentWorld_valid, by decide, ?_⟩
  rw [(kept (.inr rfl)).1]
  have changed : (Value.map [(.text "id", .int 1)] ==
      Collection.withId 1 (.map [(.text "id", .int 1), (.text "level", .int 2)])) = false := by decide
  simp [changed, oneDocumentWorld, World.connection]

/-- A replacement holding a NaN is refused, although the filter targets a stored document. -/
theorem nan_replacement_refused :
    ((⟨0, 0, "c"⟩ : Handle).replaceOne (Filter.byId 1) (.map [(.text "x", .float Double.nan)]) false).run.run
      oneDocumentWorld = (.error (.codec .nanForbidden), oneDocumentWorld) := by
  have refused : encodedLength "c" (.map [(.text "x", .float Double.nan)]) = .error (.codec .nanForbidden) := by
    simp [encodedLength, Cbor.encode, Cbor.write, Cbor.writeEntries, Cbor.writeMap, Cbor.Written.andThen,
      Cbor.hasAdjacentDuplicate, show Double.nan.isNaN = true by decide]
  exact run_replaceOne_refused rfl (by simp [Collection.replaceOne, refused, bind, Except.bind])

end GameVault.Database
