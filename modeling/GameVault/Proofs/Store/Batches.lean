import Mathlib
import GameVault.Proofs.Database.Bulk
import GameVault.Proofs.Entity.Fingerprint

namespace GameVault

open Database

/-- Whether the document at position `i` of a batch with ids `ids` is new to a collection that holds
the ids `held`: its id is neither held nor the id of an earlier document. -/
def newAt (held : Int64 → Bool) (ids : List Int64) (i : Nat) : Bool :=
  match ids[i]? with
  | some id => !held id && !(ids.take i).contains id
  | none => false

/-- Whether a bulk insert takes the document at position `i`: without order when it is new, in order
when it and every document before it are. -/
def takenAt (ordered : Bool) (held : Int64 → Bool) (ids : List Int64) (i : Nat) : Bool :=
  if ordered then (List.range (i + 1)).all (newAt held ids) else newAt held ids i

section NewAt

variable {held : Int64 → Bool} {id : Int64} {ids : List Int64}

@[simp] theorem newAt_cons_zero : newAt held (id :: ids) 0 = !held id := by
  simp [newAt]

theorem newAt_cons_succ (j : Nat) : newAt held (id :: ids) (j + 1) = newAt (fun x => held x || x == id) ids j := by
  unfold newAt
  simp only [List.getElem?_cons_succ, List.take_succ_cons]
  rcases ids[j]? with _ | x
  · rfl
  · simp only [List.contains_cons]
    cases held x <;> cases x == id <;> simp

theorem newAt_congr {held' : Int64 → Bool} (same : ∀ x, held' x = held x) (ids : List Int64) :
    newAt held' ids = newAt held ids := by
  funext i
  simp [newAt, same]

theorem takenAt_false : takenAt false held ids = newAt held ids := rfl

theorem takenAt_congr {held' : Int64 → Bool} (same : ∀ x, held' x = held x) (ordered : Bool) (ids : List Int64) :
    takenAt ordered held' ids = takenAt ordered held ids := by
  funext i
  simp [takenAt, newAt_congr same]

theorem newAt_cons_succ_of_held (held_id : held id = true) (j : Nat) :
    newAt held (id :: ids) (j + 1) = newAt held ids j := by
  rw [newAt_cons_succ]
  refine congrFun (newAt_congr (fun x => ?_) ids) j
  by_cases same : x = id
  · simp [same, held_id]
  · simp [same]

theorem takenAt_true_zero : takenAt true held (id :: ids) 0 = !held id := by
  simp [takenAt]

theorem takenAt_true_of_le {i j : Nat} (taken : takenAt true held ids j = true) (le : i ≤ j) :
    takenAt true held ids i = true := by
  simp only [takenAt, if_true, List.all_eq_true, List.mem_range] at taken ⊢
  exact fun k below => taken k (by omega)

theorem takenAt_true_succ (j : Nat) :
    takenAt true held (id :: ids) (j + 1) = (!held id && takenAt true (fun x => held x || x == id) ids j) := by
  simp only [takenAt, if_true]
  rw [List.range_succ_eq_map, List.all_cons, List.all_map]
  simp only [Function.comp_def, newAt_cons_succ, newAt_cons_zero]

theorem find?_range_not_eq_none_iff {test : Nat → Bool} {n : Nat} :
    (List.range n).find? (fun j => !test j) = none ↔ ∀ j < n, test j = true := by
  simp [List.find?_eq_none]

theorem countP_range_of_all {test : Nat → Bool} {n : Nat} (all : ∀ j < n, test j = true) :
    (List.range n).countP test = n :=
  (List.countP_eq_length.mpr fun j member => all j (List.mem_range.mp member)).trans List.length_range

end NewAt

namespace Database.Collection

variable (name : String)

/-- A document that can be stored under its id is refused exactly when the id is stored. -/
theorem insert_stored (name : String) {c : Collection} {id : Int64} {doc : Value} (stored : Stored id doc) :
    (c.contains id = true → c.insert name doc = .error (.duplicateKey name id)) ∧
      (c.contains id = false → ∃ bytes, c.insert name doc = .ok ({ c with documents := insertByKey id doc c.documents }, id, bytes)) := by
  obtain ⟨⟨entries, rfl⟩, named, encodable⟩ := stored
  have length : encodedLength name (.map entries) = .ok (Cbor.write (.map entries)).1.length := by
    simp [encodedLength, Cbor.encode_of_encodable encodable]
  have keyed : idOf name (.map entries) = .ok id := by simp [idOf, named]
  constructor
  · intro held
    simp [insert, length, keyed, held, bind, Except.bind, throw, throwThe, MonadExceptOf.throw]
  · intro fresh
    exact ⟨(Cbor.write (.map entries)).1.length, by simp [insert, length, keyed, fresh, bind, Except.bind, pure, Except.pure]⟩

theorem contains_insertByKey (c : Collection) (id : Int64) (doc : Value) (x : Int64) :
    ({ c with documents := insertByKey id doc c.documents } : Collection).contains x = (c.contains x || x == id) := by
  rw [Bool.eq_iff_iff]
  simp only [contains, List.any_eq_true, Bool.or_eq_true, beq_iff_eq, decide_eq_true_eq, mem_insertByKey]
  constructor
  · rintro ⟨p, rfl | old, rfl⟩
    · exact .inr rfl
    · exact .inl ⟨p, old, rfl⟩
  · rintro (⟨p, old, rfl⟩ | rfl)
    · exact ⟨p, .inr old, rfl⟩
    · exact ⟨(x, doc), .inl rfl, rfl⟩

variable {ids : List Int64} {docs : List Value}

/-- A document taken at position `j` of a batch, in the order the collection keeps: a position
`taken` marks, with its id and its document. -/
def TakesAt (taken : Nat → Bool) (ids : List Int64) (docs : List Value) (p : Int64 × Value) : Prop :=
  ∃ j, taken j = true ∧ ids[j]? = some p.1 ∧ docs[j]? = some p.2

theorem takesAt_cons {taken : Nat → Bool} {id : Int64} {doc : Value} {p : Int64 × Value} :
    TakesAt taken (id :: ids) (doc :: docs) p ↔ (taken 0 = true ∧ p = (id, doc)) ∨ TakesAt (taken ∘ Nat.succ) ids docs p := by
  constructor
  · rintro ⟨_ | j, marked, named, stored⟩
    · simp only [List.getElem?_cons_zero, Option.some.injEq] at named stored
      exact .inl ⟨marked, Prod.ext named.symm stored.symm⟩
    · exact .inr ⟨j, marked, named, stored⟩
  · rintro (⟨marked, rfl⟩ | ⟨j, marked, named, stored⟩)
    · exact ⟨0, marked, rfl, rfl⟩
    · exact ⟨j + 1, marked, named, stored⟩

theorem duplicateAt_succ (id : Int64) (ids : List Int64) (i : Nat) :
    (fun j => (⟨i + 1 + j, .duplicateKey name (ids.getD j 0)⟩ : BulkFailure)) =
      (fun j => (⟨i + j, .duplicateKey name ((id :: ids).getD j 0)⟩ : BulkFailure)) ∘ Nat.succ := by
  funext j
  simp only [Function.comp_apply, List.getD_cons_succ]
  congr 1
  omega

/-- Without order, a bulk insert of documents each storable under its id stores exactly the new
ones, answers as many ids, and refuses each other one, in order, as a duplicate of its id. -/
theorem insertMany_stored_unordered (keyed : List.Forall₂ Stored ids docs) (c : Collection) (i : Nat) :
    (∀ p, p ∈ (c.insertMany name false i docs).1.documents ↔
      p ∈ c.documents ∨ TakesAt (newAt c.contains ids) ids docs p) ∧
    (c.insertMany name false i docs).2.1.length = (List.range ids.length).countP (newAt c.contains ids) ∧
    (c.insertMany name false i docs).2.2.1 = ((List.range ids.length).filter fun j => !newAt c.contains ids j).map
      fun j => ⟨i + j, .duplicateKey name (ids.getD j 0)⟩ := by
  induction keyed generalizing c i with
  | nil => simp [insertMany, TakesAt]
  | @cons id doc ids docs stored rest ih =>
    obtain ⟨refusedIf, insertedIf⟩ := insert_stored name (c := c) stored
    cases held : c.contains id
    · obtain ⟨bytes, inserted⟩ := insertedIf held
      obtain ⟨docsAfter, count, failures⟩ := ih { c with documents := insertByKey id doc c.documents } (i + 1)
      have shift : newAt (Collection.contains { c with documents := insertByKey id doc c.documents }) ids =
          fun j => newAt c.contains (id :: ids) (j + 1) := by
        funext j
        rw [newAt_cons_succ]
        exact congrFun (newAt_congr (contains_insertByKey c id doc) ids) j
      rw [shift] at docsAfter count failures
      rw [insertMany_cons_ok inserted]
      refine ⟨fun p => ?_, ?_, ?_⟩
      · rw [docsAfter, takesAt_cons, mem_insertByKey]
        simp only [newAt_cons_zero, held, Bool.not_false, true_and, Function.comp_def]
        tauto
      · rw [List.length_cons, count, List.length_cons, List.range_succ_eq_map, List.countP_cons, List.countP_map]
        simp [held, Function.comp_def]
      · rw [failures, List.length_cons, List.range_succ_eq_map, List.filter_cons, List.filter_map]
        simp only [newAt_cons_zero, held, Bool.not_false, Bool.not_true, Bool.false_eq_true, if_false, List.map_map]
        rw [duplicateAt_succ name id ids i]
        rfl
    · rw [insertMany_unordered_cons_error (refusedIf held)]
      obtain ⟨docsAfter, count, failures⟩ := ih c (i + 1)
      have shift : newAt c.contains ids = fun j => newAt c.contains (id :: ids) (j + 1) := by
        funext j
        exact (newAt_cons_succ_of_held held j).symm
      rw [shift] at docsAfter count failures
      refine ⟨fun p => ?_, ?_, ?_⟩
      · rw [docsAfter, takesAt_cons]
        simp only [newAt_cons_zero, held, Bool.not_true, Bool.false_eq_true, false_and, false_or,
          Function.comp_def]
      · rw [count, List.length_cons, List.range_succ_eq_map, List.countP_cons, List.countP_map]
        simp [held, Function.comp_def]
      · rw [failures, List.length_cons, List.range_succ_eq_map, List.filter_cons, List.filter_map]
        simp only [newAt_cons_zero, held, Bool.not_true, Bool.not_false, if_true, List.map_cons,
          List.getD_cons_zero, Nat.add_zero, List.map_map]
        congr 1
        rw [duplicateAt_succ name id ids i]
        rfl

/-- In order, a bulk insert of documents each storable under its id stores the longest run of new
documents from the start, answers as many ids, and refuses the first document not in that run, if
any, as a duplicate of its id. -/
theorem insertMany_stored_ordered (keyed : List.Forall₂ Stored ids docs) (c : Collection) (i : Nat) :
    (∀ p, p ∈ (c.insertMany name true i docs).1.documents ↔
      p ∈ c.documents ∨ TakesAt (takenAt true c.contains ids) ids docs p) ∧
    (c.insertMany name true i docs).2.1.length = (List.range ids.length).countP (takenAt true c.contains ids) ∧
    (c.insertMany name true i docs).2.2.1 =
      ((List.range ids.length).find? fun j => !takenAt true c.contains ids j).toList.map
        fun j => ⟨i + j, .duplicateKey name (ids.getD j 0)⟩ := by
  induction keyed generalizing c i with
  | nil => simp [insertMany, TakesAt]
  | @cons id doc ids docs stored rest ih =>
    obtain ⟨refusedIf, insertedIf⟩ := insert_stored name (c := c) stored
    cases held : c.contains id
    · obtain ⟨bytes, inserted⟩ := insertedIf held
      obtain ⟨docsAfter, count, failures⟩ := ih { c with documents := insertByKey id doc c.documents } (i + 1)
      have shift : takenAt true (Collection.contains { c with documents := insertByKey id doc c.documents }) ids =
          fun j => takenAt true c.contains (id :: ids) (j + 1) := by
        funext j
        rw [takenAt_true_succ, held, Bool.not_false, Bool.true_and]
        exact congrFun (takenAt_congr (contains_insertByKey c id doc) true ids) j
      rw [shift] at docsAfter count failures
      rw [insertMany_cons_ok inserted]
      refine ⟨fun p => ?_, ?_, ?_⟩
      · rw [docsAfter, takesAt_cons, mem_insertByKey]
        simp only [takenAt_true_zero, held, Bool.not_false, true_and, Function.comp_def]
        tauto
      · rw [List.length_cons, count, List.length_cons, List.range_succ_eq_map, List.countP_cons, List.countP_map]
        simp [takenAt_true_zero, held, Function.comp_def]
      · rw [failures, List.length_cons, List.range_succ_eq_map, List.find?_cons, List.find?_map]
        simp only [takenAt_true_zero, held, Bool.not_false, Bool.not_true, Option.toList_map, List.map_map]
        rw [duplicateAt_succ name id ids i]
        rfl
    · rw [insertMany_ordered_cons_error (refusedIf held)]
      have none : ∀ j, takenAt true c.contains (id :: ids) j = false := by
        intro j
        cases j <;> simp [takenAt_true_zero, takenAt_true_succ, held]
      refine ⟨fun p => ?_, ?_, ?_⟩
      · simp [TakesAt, none]
      · exact (List.countP_eq_zero.mpr fun j _ => by simp [none]).symm
      · rw [List.length_cons, List.range_succ_eq_map, List.find?_cons]
        simp [none]

/-- A bulk insert of documents each storable under its id, in either mode: it stores exactly the
documents taken and answers as many ids; its first refusal, if any, is the first document not taken,
as a duplicate of its id; and a document is taken exactly when it was tried and not refused. -/
theorem insertMany_stored (ordered : Bool) (keyed : List.Forall₂ Stored ids docs) (c : Collection) :
    (∀ p, p ∈ (c.insertMany name ordered 0 docs).1.documents ↔
      p ∈ c.documents ∨ TakesAt (takenAt ordered c.contains ids) ids docs p) ∧
    (c.insertMany name ordered 0 docs).2.1.length = (List.range ids.length).countP (takenAt ordered c.contains ids) ∧
    (c.insertMany name ordered 0 docs).2.2.1.head? =
      ((List.range ids.length).find? fun j => !takenAt ordered c.contains ids j).map
        (fun j => ⟨j, .duplicateKey name (ids.getD j 0)⟩) ∧
    ∀ j < ids.length,
      (decide (j < if ordered then ((c.insertMany name ordered 0 docs).2.2.1.head?.map (·.index)).getD ids.length
          else ids.length) &&
        !((c.insertMany name ordered 0 docs).2.2.1.map (·.index)).contains j) = takenAt ordered c.contains ids j := by
  cases ordered with
  | false =>
    obtain ⟨documents, count, failures⟩ := insertMany_stored_unordered name keyed c 0
    refine ⟨documents, count, ?_, fun j below => ?_⟩
    · rw [failures, List.head?_map, List.head?_filter]
      simp [takenAt_false]
    · rw [failures]
      simp [takenAt_false, below]
  | true =>
    obtain ⟨documents, count, failures⟩ := insertMany_stored_ordered name keyed c 0
    refine ⟨documents, count, ?_, fun j below => ?_⟩
    · rw [failures]
      cases (List.range ids.length).find? fun j => !takenAt true c.contains ids j <;> simp
    · rw [failures]
      rcases first : (List.range ids.length).find? (fun j => !takenAt true c.contains ids j) with _ | cut
      · simp [below, find?_range_not_eq_none_iff.mp first j below]
      · obtain ⟨refused, -, before⟩ := List.find?_range_eq_some.mp first
        simp only [Bool.not_eq_eq_eq_not, Bool.not_true] at refused
        simp only [Option.toList_some, List.map_cons, List.map_nil, List.head?_cons, Option.map_some,
          Option.getD_some, if_true, List.contains_cons, List.contains_nil, Bool.or_false, Nat.zero_add]
        by_cases earlier : j < cut
        · have taken := before j earlier
          simp only [Bool.not_not] at taken
          simp [earlier, taken, Nat.ne_of_lt earlier]
        · have later : takenAt true c.contains ids j = false := by
            by_contra taken
            rw [takenAt_true_of_le (Bool.not_eq_false _ ▸ taken) (Nat.le_of_not_lt earlier)] at refused
            cases refused
          simp [earlier, later]

end Database.Collection

namespace Database

theorem acknowledged_countWrite (w : World) (slot i : Nat) (c : Collection) (bytes : Nat) :
    (((w.setCollection slot c).modifyConnection i fun conn =>
      { conn with counters := conn.counters.write bytes }).connection i).acknowledged = (w.connection i).acknowledged := by
  rw [connection_modifyConnection]
  split_ifs <;> rfl

/-- On an open connection a bulk insert stores what the collection's own insert leaves, answers its
ids and refusals, acknowledged as the connection is, and counts one write. -/
theorem run_insertMany {w : World} {h : Handle} (opened : (w.connection h.connection).closed = false)
    (docs : List Value) (ordered : Bool) :
    (h.insertMany docs ordered).run.run w =
      (.ok ⟨(w.connection h.connection).acknowledged, ((w.collection h.slot).insertMany h.name ordered 0 docs).2.1,
          ((w.collection h.slot).insertMany h.name ordered 0 docs).2.2.1⟩,
        (w.setCollection h.slot ((w.collection h.slot).insertMany h.name ordered 0 docs).1).modifyConnection
          h.connection fun conn =>
            { conn with counters := conn.counters.write ((w.collection h.slot).insertMany h.name ordered 0 docs).2.2.2 }) := by
  simp [Handle.insertMany, ensureOpen, opened, Handle.current, Handle.store, Database.count, ExceptT.run_bind,
    Except.map, acknowledged_countWrite]
  rfl

theorem run_insertMany_closed {w : World} {h : Handle} (closed : (w.connection h.connection).closed = true)
    (docs : List Value) (ordered : Bool) : (h.insertMany docs ordered).run.run w = (.error .closed, w) := by
  simp [Handle.insertMany, ensureOpen, closed]
  rfl

/-- A bulk insert fails only on a closed connection, and then changes nothing. -/
theorem insertMany_error {w w' : World} {h : Handle} {docs : List Value} {ordered : Bool} {e : DriverError}
    (failed : (h.insertMany docs ordered).run.run w = (.error e, w')) : w' = w := by
  by_cases closed : (w.connection h.connection).closed
  · rw [run_insertMany_closed closed] at failed
    cases failed
    rfl
  · rw [run_insertMany (by simpa using closed)] at failed
    cases failed

end Database

namespace Entity

/-- The entity stamped with its creation at `now`, as a batch stamps it. -/
def stampCreated (now : Int64) (e : Entity) : Entity :=
  { e with audit := e.audit.markCreated (e.audit.nextStamp now) }

@[simp] theorem id_stampCreated (now : Int64) (e : Entity) : (e.stampCreated now).id = e.id := rfl

/-- The document a change check takes can be stored under the entity's id. -/
theorem checked_stored {e : Entity} {change : ChangeSet} (checked : e.checkChanges = .ok change) :
    Stored e.id change.document := by
  rw [checked_document checked]
  refine ⟨⟨_, rfl⟩, e.document_id, encodable_ofPairs ?_ fun p member => ?_⟩
  · have keys := Cbor.nodup_write_texts e.kind.documentKeys_nodup e.kind.documentKeys_short
    have renamed := congrArg (List.map fun k => (Cbor.write k).1) e.pairs_keys
    simp only [List.map_map, Function.comp_def] at renamed
    exact renamed ▸ keys
  rcases List.mem_append.mp member with audit | own
  · simp only [Audit.pairs, List.mem_cons, List.not_mem_nil, or_false] at audit
    rcases audit with rfl | rfl | rfl | rfl | rfl | rfl <;> exact ⟨rfl, rfl⟩
  · obtain ⟨bytes, encoded, -⟩ := Fingerprint.of_eq_ok_iff.mp (checkChanges_fingerprint checked)
    rw [checked_document checked, Value.ofPairs, Fingerprint.stablePart_map] at encoded
    obtain ⟨-, each⟩ := Value.encodable_map.mp (Cbor.encode_eq_ok_iff.mp encoded).1
    refine each p (List.mem_filter.mpr ⟨(List.mergeSort_perm _ _).mem_iff.mpr (List.mem_append_right _ own), ?_⟩)
    obtain ⟨f, owned, named⟩ : ∃ f ∈ e.kind.ownFields, Value.text f = p.1 := by
      have listed := List.mem_map_of_mem (f := Prod.fst) own
      rw [Body.fields_keys, List.mem_map] at listed
      exact listed
    have apart := (List.nodup_append.mp e.kind.documentKeys_nodup).2.2
    have notTime : f ≠ updateTimeField := fun same => apart _ (by simp [Schema.auditFields]) f owned same.symm
    have notCount : f ≠ updateCountField := fun same => apart _ (by simp [Schema.auditFields]) f owned same.symm
    rw [← named]
    simp [Fingerprint.leftOut, Value.isKey, notTime, notCount]

end Entity

namespace Store

/-- A batch whose every entity checks out once stamped stamps every one and answers each one's change
set. -/
theorem stampBatch_checked {now : Int64} {es : List Entity}
    (checks : ∀ e ∈ es, ∃ change, (e.stampCreated now).checkChanges = .ok change) :
    ∃ changes, stampBatch now es = (es.map (Entity.stampCreated now), .ok changes) ∧
      List.Forall₂ (fun e change => (e.stampCreated now).checkChanges = .ok change) es changes := by
  induction es with
  | nil => exact ⟨[], rfl, .nil⟩
  | cons e rest ih =>
    obtain ⟨change, checked⟩ := checks e List.mem_cons_self
    obtain ⟨changes, stamped, each⟩ := ih fun x member => checks x (List.mem_cons_of_mem e member)
    refine ⟨change :: changes, ?_, .cons checked each⟩
    unfold stampBatch
    rw [show ({ e with audit := e.audit.markCreated (e.audit.nextStamp now) } : Entity) = e.stampCreated now from rfl]
    simp only [checked, stamped]
    rfl

/-- Stamping a batch stamps entities with their creation and changes nothing else. -/
theorem stampBatch_stamps (now : Int64) (es : List Entity) :
    List.Forall₂ (fun e e' => e' = e ∨ e' = e.stampCreated now) es (stampBatch now es).1 := by
  induction es with
  | nil => exact .nil
  | cons e rest ih =>
    rcases stampedRest : stampBatch now rest with ⟨later, checked⟩
    rw [stampedRest] at ih
    unfold stampBatch
    rw [stampedRest]
    dsimp only
    split
    · exact .cons (.inr rfl) (List.forall₂_same.mpr fun x _ => .inl rfl)
    · exact .cons (.inr rfl) ih

theorem length_markBatch (attempted : Nat) (refused : List Nat) (i : Nat) (es : List Entity) (cs : List ChangeSet) :
    (markBatch attempted refused i es cs).length = es.length := by
  induction es generalizing i cs with
  | nil => cases cs <;> rfl
  | cons e rest ih =>
    cases cs with
    | nil => rfl
    | cons c cs => simp [markBatch, ih]

/-- Marking a batch marks saved the entity at each position tried and not refused, with its own
change set's fingerprint, and leaves every other one as it is. -/
theorem markBatch_getElem? (attempted : Nat) (refused : List Nat) {es : List Entity} {cs : List ChangeSet}
    {j : Nat} {e : Entity} {c : ChangeSet} (entity : es[j]? = some e) (change : cs[j]? = some c) (i : Nat) :
    (markBatch attempted refused i es cs)[j]? =
      some (if (decide (i + j < attempted) && !refused.contains (i + j)) then e.markSaved c.fingerprint else e) := by
  induction es generalizing i cs j with
  | nil => simp at entity
  | cons x rest ih =>
    cases cs with
    | nil => simp at change
    | cons y cs =>
      cases j with
      | zero =>
        simp only [List.getElem?_cons_zero, Option.some.injEq] at entity change
        subst entity change
        simp [markBatch]
      | succ j =>
        simp only [List.getElem?_cons_succ] at entity change
        simp only [markBatch, List.getElem?_cons_succ, ih entity change (i + 1)]
        rw [Nat.add_right_comm, Nat.add_assoc]

variable {k : Kind} {es : List Entity} {σ σ₁ : Store × World} {h : Handle}

/-- A batch that reaches its bulk insert, and whose insert is answered, gives back the entities marked
saved where the answer says so and answers success or the partial failure; the store counts the
failed documents. -/
theorem run_addBatch_written {stamped : List Entity} {changes : List ChangeSet} {outcome : BulkOutcome} {w₂ : World}
    (nonempty : es ≠ []) (opening : (collection k).run.run σ = (.ok h, σ₁))
    (checked : stampBatch σ₁.2.clock es = (stamped, .ok changes))
    (inserted : (h.insertMany (changes.map (·.document)) σ₁.1.config.ordered).run.run σ₁.2 = (.ok outcome, w₂)) :
    ∃ s', (addBatch k es).run σ =
        ((if outcome.acknowledged then
            markBatch (if σ₁.1.config.ordered then (outcome.failures.head?.map (·.index)).getD es.length else es.length)
              (outcome.failures.map (·.index)) 0 stamped changes
          else stamped,
          outcome.failures.head?.elim (.ok ()) fun first =>
            .error (.batchPartiallyFailed k.collection (es.length - outcome.insertedIds.length) es.length first.error)),
          (s', w₂)) ∧
      s'.stats.batchFailures =
        σ₁.1.stats.batchFailures + outcome.failures.head?.elim 0 fun _ => es.length - outcome.insertedIds.length := by
  have full : es.isEmpty = false := by simpa using nonempty
  unfold addBatch
  simp only [full, Bool.false_eq_true, if_false]
  rw [stateM_run_bind, opening]
  dsimp only
  rw [stateM_run_bind, stateM_run_get]
  dsimp only
  rw [checked]
  dsimp only
  rw [stateM_run_bind, stateM_run_get]
  dsimp only
  rw [stateM_run_bind, run_database_ok inserted]
  dsimp only
  rw [stateM_run_bind]
  rcases failures : outcome.failures with _ | ⟨first, rest⟩
  · exact ⟨_, rfl, by simp⟩
  · rw [stateM_run_bind]
    exact ⟨_, rfl, by simp⟩

/-- A batch whose every entity checks out, sent on a closed connection, fails with the closed
connection and gives back every entity stamped with its creation. -/
theorem run_addBatch_closed {s₁ : Store} {w₁ : World} {changes : List ChangeSet}
    (nonempty : es ≠ []) (opening : (collection k).run.run σ = (.ok h, (s₁, w₁)))
    (closed : (w₁.connection h.connection).closed = true)
    (checked : stampBatch w₁.clock es = (es.map (Entity.stampCreated w₁.clock), .ok changes)) :
    (addBatch k es).run σ = ((es.map (Entity.stampCreated w₁.clock), .error (.driver .closed)), (s₁, w₁)) := by
  have full : es.isEmpty = false := by simpa using nonempty
  unfold addBatch
  simp only [full, Bool.false_eq_true, if_false]
  rw [stateM_run_bind, opening]
  dsimp only
  rw [stateM_run_bind, stateM_run_get]
  dsimp only
  rw [checked]
  dsimp only
  rw [stateM_run_bind, stateM_run_get]
  dsimp only
  rw [stateM_run_bind, run_database_error (run_insertMany_closed closed _ _)]
  rfl

/-- A batch that fails short of its write, in any way but a partial failure of the insert, stores
nothing and gives back each entity as it was or stamped with its creation. -/
theorem addBatch_unwritten {es' : List Entity} {r : Except StoreError Unit} {σ' : Store × World}
    (ran : (addBatch k es).run σ = ((es', r), σ'))
    (unwritten : r ≠ .ok () ∧ ∀ name failed total e, r ≠ .error (.batchPartiallyFailed name failed total e)) :
    (∀ slot, σ'.2.collection slot = σ.2.collection slot) ∧
      List.Forall₂ (fun e e' => e' = e ∨ e' = e.stampCreated σ.2.clock) es es' := by
  unfold addBatch at ran
  split at ran
  · cases ran
    exact ⟨fun _ => rfl, List.forall₂_same.mpr fun x _ => .inl rfl⟩
  rw [stateM_run_bind] at ran
  rcases opening : (collection k).run.run σ with ⟨_ | h, s₁, w₁⟩
  · rw [opening] at ran
    cases ran
    exact ⟨(inert_collection k σ _ _ opening).collections, List.forall₂_same.mpr fun x _ => .inl rfl⟩
  have untouched := inert_collection k σ _ _ opening
  rw [opening] at ran
  dsimp only at ran
  rw [stateM_run_bind, stateM_run_get] at ran
  dsimp only at ran
  rw [← untouched.keeps.clock]
  rcases checked : stampBatch w₁.clock es with ⟨stamped, _ | changes⟩
  · have stamps := stampBatch_stamps w₁.clock es
    rw [checked] at stamps ran
    cases ran
    exact ⟨untouched.collections, stamps⟩
  rw [checked] at ran
  dsimp only at ran
  have stamps := stampBatch_ok checked
  rw [stateM_run_bind, stateM_run_get] at ran
  dsimp only at ran
  rw [stateM_run_bind] at ran
  rcases inserting : (h.insertMany (changes.map (·.document)) s₁.config.ordered).run.run w₁ with ⟨_ | outcome, w₂⟩
  · rw [run_database_error inserting] at ran
    cases ran
    obtain rfl := Database.insertMany_error inserting
    exact ⟨untouched.collections, stamps.imp fun _ _ same => .inr same⟩
  · rw [run_database_ok inserting] at ran
    dsimp only at ran
    rw [stateM_run_bind] at ran
    split at ran
    · cases ran
      exact absurd rfl unwritten.1
    · rw [stateM_run_bind] at ran
      cases ran
      exact absurd rfl (unwritten.2 _ _ _ _)

/-- Related lists end at the same position and hold related entries before it. -/
theorem forall₂_getElem? {α β : Type} {R : α → β → Prop} {l₁ : List α} {l₂ : List β}
    (related : List.Forall₂ R l₁ l₂) (j : Nat) :
    (l₁[j]? = none ∧ l₂[j]? = none) ∨ ∃ a b, l₁[j]? = some a ∧ l₂[j]? = some b ∧ R a b := by
  induction related generalizing j with
  | nil => exact .inl ⟨rfl, rfl⟩
  | cons head _ ih =>
    cases j with
    | zero => exact .inr ⟨_, _, rfl, rfl, head⟩
    | succ j => simpa using ih j

/-- The documents a batch sends, taken by position, are the documents of its stamped entities under
their ids. -/
theorem takesAt_checked {now : Int64} {changes : List ChangeSet} {taken : Nat → Bool} {p : Int64 × Value}
    (each : List.Forall₂ (fun e change => (e.stampCreated now).checkChanges = .ok change) es changes) :
    Collection.TakesAt taken (es.map (·.id)) (changes.map (·.document)) p ↔
      ∃ j e, taken j = true ∧ es[j]? = some e ∧ p.1 = e.id ∧ (e.stampCreated now).document = .ok p.2 := by
  constructor
  · rintro ⟨j, taken_j, named, documented⟩
    rcases forall₂_getElem? each j with ⟨absent, -⟩ | ⟨e, change, entity, changed, checked⟩
    · simp [absent] at named
    · simp only [List.getElem?_map, entity, changed, Option.map_some, Option.some.injEq] at named documented
      refine ⟨j, e, taken_j, entity, named.symm, ?_⟩
      rw [Entity.checkChanges_document checked, documented]
  · rintro ⟨j, e, taken_j, entity, named, documented⟩
    rcases forall₂_getElem? each j with ⟨absent, -⟩ | ⟨e', change, entity', changed, checked⟩
    · rw [entity] at absent
      cases absent
    · rw [entity] at entity'
      cases entity'
      rw [Entity.checkChanges_document checked] at documented
      injection documented with same
      exact ⟨j, taken_j, by simp [entity, named], by simp [changed, same]⟩

/-- Which positions of a batch the collection at a handle's slot takes, by the rule on ids and in the
store's insert order. -/
def batchTaken (σ : Store × World) (h : Handle) (es : List Entity) : Nat → Bool :=
  takenAt σ.1.config.ordered (σ.2.collection h.slot).contains (es.map (·.id))

/-- A batch that reaches an open connection with every entity checked stores exactly the documents
the rule on ids takes, gives back those entities marked saved when the write is acknowledged and the
others stamped, and answers success exactly when it took every document, otherwise the partial
failure with the count of documents not taken and the refusal of the first of them. -/
theorem addBatch_written {es' : List Entity} {r : Except StoreError Unit} {σ' : Store × World}
    (ran : (addBatch k es).run σ = ((es', r), σ'))
    (opening : (collection k).run.run σ = (.ok h, σ₁)) (inside : h.slot < σ₁.2.slots.size)
    (live : (σ.2.connection h.connection).closed = false) (nonempty : es ≠ [])
    (checks : ∀ e ∈ es, ∃ change, (e.stampCreated σ.2.clock).checkChanges = .ok change) :
    (∀ p, p ∈ (σ'.2.collection h.slot).documents ↔ p ∈ (σ.2.collection h.slot).documents ∨
      ∃ j e, batchTaken σ h es j = true ∧ es[j]? = some e ∧ p.1 = e.id ∧
        (e.stampCreated σ.2.clock).document = .ok p.2) ∧
    es'.length = es.length ∧
    (∀ j e, es[j]? = some e → ∃ change, (e.stampCreated σ.2.clock).checkChanges = .ok change ∧
      es'[j]? = some (if (σ.2.connection h.connection).acknowledged && batchTaken σ h es j then
        (e.stampCreated σ.2.clock).markSaved change.fingerprint else e.stampCreated σ.2.clock)) ∧
    (r = .ok () ↔ ∀ j < es.length, batchTaken σ h es j = true) ∧
    (∀ first e, (List.range es.length).find? (fun j => !batchTaken σ h es j) = some first → es[first]? = some e →
      r = .error (.batchPartiallyFailed k.collection (es.length - (List.range es.length).countP (batchTaken σ h es))
        es.length (.duplicateKey h.name e.id))) ∧
    σ'.1.stats.batchFailures =
      σ.1.stats.batchFailures + (es.length - (List.range es.length).countP (batchTaken σ h es)) := by
  obtain ⟨s₁, w₁⟩ := σ₁
  have untouched := inert_collection k σ _ _ opening
  have connected : σ.2.connection h.connection = w₁.connection h.connection := by
    unfold World.connection
    rw [untouched.keeps.connections]
  have rule : batchTaken σ h es = batchTaken (s₁, w₁) h es := by
    unfold batchTaken
    rw [untouched.keeps.config, untouched.collections]
  rw [← untouched.keeps.clock] at checks ⊢
  rw [← untouched.collections, ← untouched.keeps.stats, connected, rule]
  rw [connected] at live
  obtain ⟨changes, stamped, each⟩ := stampBatch_checked checks
  have keyed : List.Forall₂ Stored (es.map (·.id)) (changes.map (·.document)) := by
    rw [List.forall₂_map_left_iff, List.forall₂_map_right_iff]
    exact each.imp fun e change checked => by simpa using Entity.checked_stored checked
  obtain ⟨documents, count, first, marks⟩ :=
    Collection.insertMany_stored h.name s₁.config.ordered keyed (w₁.collection h.slot)
  have inserted := run_insertMany live (changes.map (·.document)) s₁.config.ordered
  obtain ⟨s', run, counted⟩ := run_addBatch_written nonempty opening stamped inserted
  rw [run] at ran
  injection ran with answered stored
  injection answered with given result
  subst given result stored
  simp only [List.length_map] at count first marks
  unfold batchTaken
  dsimp only
  set taken := takenAt s₁.config.ordered (w₁.collection h.slot).contains (es.map (·.id))
  set result := (w₁.collection h.slot).insertMany h.name s₁.config.ordered 0 (changes.map (·.document))
  dsimp only at each counted
  refine ⟨fun p => ?_, ?_, fun j e entity => ?_, ?_, fun cut e found entity => ?_, ?_⟩
  · rw [collection_modifyConnection, World.collection_setCollection_self inside, documents p, takesAt_checked each]
  · split <;> simp [length_markBatch]
  · rcases forall₂_getElem? each j with ⟨absent, -⟩ | ⟨e', change, entity', changed, checked⟩
    · rw [entity] at absent
      cases absent
    rw [entity] at entity'
    cases entity'
    refine ⟨change, checked, ?_⟩
    have stampedAt : (es.map (Entity.stampCreated w₁.clock))[j]? = some (e.stampCreated w₁.clock) := by
      simp [entity]
    have marked := markBatch_getElem?
      (if s₁.config.ordered then (result.2.2.1.head?.map (·.index)).getD es.length else es.length)
      (result.2.2.1.map (·.index)) stampedAt changed 0
    rw [Nat.zero_add, marks j (List.getElem?_eq_some_iff.mp entity).1] at marked
    cases acknowledged : (w₁.connection h.connection).acknowledged
    · simp [stampedAt]
    · simpa using marked
  · rw [first, ← find?_range_not_eq_none_iff]
    cases (List.range es.length).find? (fun j => !taken j) <;> simp
  · rw [first, found]
    simp [count, entity]
  · rw [counted, first]
    rcases found : (List.range es.length).find? (fun j => !taken j) with _ | cut
    · simp [countP_range_of_all (find?_range_not_eq_none_iff.mp found)]
    · simp [count]

/-- What adding a batch does. A batch that reaches an open connection with every entity checked
stores exactly the documents whose ids are new (without order all of them, in order the longest run
of them from the start), gives back those entities marked saved with their own fingerprint when the
write is acknowledged and every other one stamped, and answers success exactly when it took every
document; otherwise the partial failure, counted as the documents not taken, with the refusal of the
first of them. A batch that fails in any other way stores nothing and gives back each entity as it
was or stamped with its creation. -/
theorem batch_stores_exactly_new_documents {es' : List Entity} {r : Except StoreError Unit} {σ' : Store × World}
    (ran : (addBatch k es).run σ = ((es', r), σ')) :
    (∀ h σ₁, (collection k).run.run σ = (.ok h, σ₁) → h.slot < σ₁.2.slots.size →
      (σ.2.connection h.connection).closed = false → es ≠ [] →
      (∀ e ∈ es, ∃ change, (e.stampCreated σ.2.clock).checkChanges = .ok change) →
      (∀ p, p ∈ (σ'.2.collection h.slot).documents ↔ p ∈ (σ.2.collection h.slot).documents ∨
        ∃ j e, batchTaken σ h es j = true ∧ es[j]? = some e ∧ p.1 = e.id ∧
          (e.stampCreated σ.2.clock).document = .ok p.2) ∧
      es'.length = es.length ∧
      (∀ j e, es[j]? = some e → ∃ change, (e.stampCreated σ.2.clock).checkChanges = .ok change ∧
        es'[j]? = some (if (σ.2.connection h.connection).acknowledged && batchTaken σ h es j then
          (e.stampCreated σ.2.clock).markSaved change.fingerprint else e.stampCreated σ.2.clock)) ∧
      (r = .ok () ↔ ∀ j < es.length, batchTaken σ h es j = true) ∧
      (∀ first e, (List.range es.length).find? (fun j => !batchTaken σ h es j) = some first →
        es[first]? = some e →
        r = .error (.batchPartiallyFailed k.collection
          (es.length - (List.range es.length).countP (batchTaken σ h es)) es.length (.duplicateKey h.name e.id))) ∧
      σ'.1.stats.batchFailures =
        σ.1.stats.batchFailures + (es.length - (List.range es.length).countP (batchTaken σ h es))) ∧
    ((r ≠ .ok () ∧ ∀ name failed total e, r ≠ .error (.batchPartiallyFailed name failed total e)) →
      (∀ slot, σ'.2.collection slot = σ.2.collection slot) ∧
      List.Forall₂ (fun e e' => e' = e ∨ e' = e.stampCreated σ.2.clock) es es') :=
  ⟨fun _ _ opening inside live nonempty checks => addBatch_written ran opening inside live nonempty checks,
    addBatch_unwritten ran⟩

/-- Two roles with one id sent as one batch to the role store: the second is refused, and the batch
answers the partial failure of one document out of two. -/
theorem role_batch_refuses_repeated_id :
    ∃ es' σ', (addBatch .role [Entity.namedRole 1 "a", Entity.namedRole 1 "b"]).run (roleOpened {}) =
      ((es', .error (.batchPartiallyFailed "RoleState" 1 2 (.duplicateKey "RoleState" 1))), σ') := by
  rcases running : (addBatch .role [Entity.namedRole 1 "a", Entity.namedRole 1 "b"]).run (roleOpened {})
    with ⟨⟨es', r⟩, σ'⟩
  have opened : Opened (roleOpened {}).1 .role ⟨0, 0, "RoleState"⟩ :=
    ⟨by simp [roleOpened, Kind.collection], by simp [roleOpened, Kind.collection]⟩
  have checks : ∀ e ∈ [Entity.namedRole 1 "a", Entity.namedRole 1 "b"],
      ∃ change, (e.stampCreated (roleOpened {}).2.clock).checkChanges = .ok change := by
    intro e member
    simp only [List.mem_cons, List.not_mem_nil, or_false] at member
    rcases member with rfl | rfl <;> exact (Entity.checkChanges_ok (by trivial) (by decide)).imp fun _ checked => checked.1
  obtain ⟨-, -, -, -, answered, -⟩ := (batch_stores_exactly_new_documents running).1 _ _
    (run_collection_opened opened _) Nat.one_pos rfl (List.cons_ne_nil _ _) checks
  have refused := answered 1 (Entity.namedRole 1 "b") (by decide) rfl
  exact ⟨es', σ', by rw [refused]; rfl⟩

/-- A batch sent on a closed connection answers the closed connection, yet gives back its role
stamped with its creation: the role was created at 0 and comes back created at 5. -/
theorem closed_batch_keeps_creation_stamp :
    ((addBatch .role [Entity.namedRole 1 "a"]).run ((roleOpened {}).1,
        ({ (roleOpened {}).2 with clock := 5 } : World).modifyConnection 0 fun conn => { conn with closed := true })).1 =
      ([(Entity.namedRole 1 "a").stampCreated 5], .error (.driver .closed)) ∧
    (Entity.namedRole 1 "a").audit.createTime = 0 ∧ ((Entity.namedRole 1 "a").stampCreated 5).audit.createTime = 5 := by
  have opened : Opened (roleOpened {}).1 .role ⟨0, 0, "RoleState"⟩ :=
    ⟨by simp [roleOpened, Kind.collection], by simp [roleOpened, Kind.collection]⟩
  have checks : ∀ e ∈ [Entity.namedRole 1 "a"], ∃ change, (e.stampCreated 5).checkChanges = .ok change := by
    intro e member
    rw [List.mem_singleton] at member
    subst member
    exact (Entity.checkChanges_ok (by trivial) (by decide)).imp fun _ checked => checked.1
  obtain ⟨changes, stamped, -⟩ := stampBatch_checked checks
  have opening := run_collection_opened opened
    (({ (roleOpened {}).2 with clock := 5 } : World).modifyConnection 0 fun conn => { conn with closed := true })
  rw [run_addBatch_closed (List.cons_ne_nil _ _) opening rfl stamped]
  exact ⟨rfl, rfl, by decide⟩

end Store

end GameVault
