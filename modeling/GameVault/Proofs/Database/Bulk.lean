import Mathlib
import GameVault.Proofs.Database.Collection

namespace GameVault.Database

namespace Collection

/-- One single insert of a run over documents: the collection it leaves and the answers so far,
the newest last. A refused document leaves the collection as it was. -/
def insertStep (name : String) (acc : Collection × List (Except DriverError Int64)) (doc : Value) :
    Collection × List (Except DriverError Int64) :=
  match acc.1.insert name doc with
  | .ok (c, id, _) => (c, acc.2 ++ [.ok id])
  | .error e => (acc.1, acc.2 ++ [.error e])

/-- Single inserts of documents in turn, each refusal set aside: the collection they leave and what
each insert answered. -/
def insertEach (name : String) (c : Collection) (docs : List Value) :
    Collection × List (Except DriverError Int64) :=
  docs.foldl (insertStep name) (c, [])

end Collection

/-- The ids that single inserts stored, in order. -/
def storedIds : List (Except DriverError Int64) → List Int64
  | [] => []
  | .ok id :: rest => id :: storedIds rest
  | .error _ :: rest => storedIds rest

/-- The refused inserts among answers, by position counted from `i`. -/
def refusals : Nat → List (Except DriverError Int64) → List BulkFailure
  | _, [] => []
  | i, .ok _ :: rest => refusals (i + 1) rest
  | i, .error e :: rest => ⟨i, e⟩ :: refusals (i + 1) rest

/-- How many inserts run up to and including the first refusal. -/
def throughFirstRefusal : List (Except DriverError Int64) → Nat
  | [] => 0
  | .ok _ :: rest => throughFirstRefusal rest + 1
  | .error _ :: _ => 1

theorem length_storedIds_add_refusals (answers : List (Except DriverError Int64)) (i : Nat) :
    (storedIds answers).length + (refusals i answers).length = answers.length := by
  induction answers generalizing i with
  | nil => rfl
  | cons a rest ih =>
    rcases a with e | id
    · simp [storedIds, refusals, ← ih (i + 1)]
      omega
    · simp [storedIds, refusals, ← ih (i + 1)]
      omega

theorem index_refusals (answers : List (Except DriverError Int64)) (i : Nat) :
    ∀ f ∈ refusals i answers, i ≤ f.index := by
  induction answers generalizing i with
  | nil => simp [refusals]
  | cons a rest ih =>
    intro f refused
    rcases a with e | id
    · rcases List.mem_cons.mp refused with rfl | later
      · exact Nat.le_refl _
      · exact Nat.le_of_succ_le (ih (i + 1) f later)
    · exact Nat.le_of_succ_le (ih (i + 1) f refused)

/-- Refusals are reported in increasing order of position. -/
theorem refusals_ascending (answers : List (Except DriverError Int64)) (i : Nat) :
    ((refusals i answers).map (·.index)).Pairwise (· < ·) := by
  induction answers generalizing i with
  | nil => simp [refusals]
  | cons a rest ih =>
    rcases a with e | id
    · simp only [refusals, List.map_cons, List.pairwise_cons, List.mem_map]
      refine ⟨?_, ih (i + 1)⟩
      rintro _ ⟨f, later, rfl⟩
      exact index_refusals rest (i + 1) f later
    · exact ih (i + 1)

namespace Collection

variable {name : String}

theorem foldl_insertStep (docs : List Value) (c : Collection) (before : List (Except DriverError Int64)) :
    docs.foldl (insertStep name) (c, before) = ((c.insertEach name docs).1, before ++ (c.insertEach name docs).2) := by
  induction docs generalizing c before with
  | nil => simp [insertEach]
  | cons doc rest ih =>
    simp only [insertEach, List.foldl_cons, insertStep]
    split <;> simp [ih, List.append_assoc]

@[simp] theorem insertEach_nil (c : Collection) : c.insertEach name [] = (c, []) := rfl

theorem insertEach_cons_ok {c c' : Collection} {doc : Value} {id : Int64} {bytes : Nat}
    (inserted : c.insert name doc = .ok (c', id, bytes)) (rest : List Value) :
    c.insertEach name (doc :: rest) = ((c'.insertEach name rest).1, .ok id :: (c'.insertEach name rest).2) := by
  rw [insertEach, List.foldl_cons]
  simp only [insertStep, inserted, List.nil_append]
  exact foldl_insertStep rest c' [.ok id]

theorem insertEach_cons_error {c : Collection} {doc : Value} {e : DriverError}
    (refused : c.insert name doc = .error e) (rest : List Value) :
    c.insertEach name (doc :: rest) = ((c.insertEach name rest).1, .error e :: (c.insertEach name rest).2) := by
  rw [insertEach, List.foldl_cons]
  simp only [insertStep, refused, List.nil_append]
  exact foldl_insertStep rest c [.error e]

theorem length_insertEach (docs : List Value) (c : Collection) : (c.insertEach name docs).2.length = docs.length := by
  induction docs generalizing c with
  | nil => rfl
  | cons doc rest ih =>
    rcases inserted : c.insert name doc with e | ⟨c', id, bytes⟩
    · simp [insertEach_cons_error inserted, ih]
    · simp [insertEach_cons_ok inserted, ih]

theorem insertMany_cons_ok {ordered : Bool} {c c' : Collection} {doc : Value} {id : Int64} {bytes : Nat}
    (inserted : c.insert name doc = .ok (c', id, bytes)) (i : Nat) (rest : List Value) :
    c.insertMany name ordered i (doc :: rest) =
      ((c'.insertMany name ordered (i + 1) rest).1, id :: (c'.insertMany name ordered (i + 1) rest).2.1,
        (c'.insertMany name ordered (i + 1) rest).2.2.1, bytes + (c'.insertMany name ordered (i + 1) rest).2.2.2) := by
  simp only [insertMany, inserted]

theorem insertMany_unordered_cons_error {c : Collection} {doc : Value} {e : DriverError}
    (refused : c.insert name doc = .error e) (i : Nat) (rest : List Value) :
    c.insertMany name false i (doc :: rest) =
      ((c.insertMany name false (i + 1) rest).1, (c.insertMany name false (i + 1) rest).2.1,
        ⟨i, e⟩ :: (c.insertMany name false (i + 1) rest).2.2.1, (c.insertMany name false (i + 1) rest).2.2.2) := by
  simp only [insertMany, refused, Bool.false_eq_true, if_false]

theorem insertMany_ordered_cons_error {c : Collection} {doc : Value} {e : DriverError}
    (refused : c.insert name doc = .error e) (i : Nat) (rest : List Value) :
    c.insertMany name true i (doc :: rest) = (c, [], [⟨i, e⟩], 0) := by
  simp only [insertMany, refused, if_true]

/-- Without order, a bulk insert leaves what single inserts in turn leave, answers the ids they
stored and reports their refusals by position. -/
theorem insertMany_unordered (docs : List Value) (c : Collection) (i : Nat) :
    (c.insertMany name false i docs).1 = (c.insertEach name docs).1 ∧
      (c.insertMany name false i docs).2.1 = storedIds (c.insertEach name docs).2 ∧
      (c.insertMany name false i docs).2.2.1 = refusals i (c.insertEach name docs).2 := by
  induction docs generalizing c i with
  | nil => simp [insertMany, storedIds, refusals]
  | cons doc rest ih =>
    rcases inserted : c.insert name doc with e | ⟨c', id, bytes⟩
    · obtain ⟨same, ids, failures⟩ := ih c (i + 1)
      simp [insertMany_unordered_cons_error inserted, insertEach_cons_error inserted, same, ids, failures,
        storedIds, refusals]
    · obtain ⟨same, ids, failures⟩ := ih c' (i + 1)
      simp [insertMany_cons_ok inserted, insertEach_cons_ok inserted, same, ids, failures, storedIds, refusals]

/-- In order, a bulk insert is the run of single inserts cut right after the first refusal. -/
theorem insertMany_ordered (docs : List Value) (c : Collection) (i : Nat) :
    let stopped := c.insertEach name (docs.take (throughFirstRefusal (c.insertEach name docs).2))
    (c.insertMany name true i docs).1 = stopped.1 ∧ (c.insertMany name true i docs).2.1 = storedIds stopped.2 ∧
      (c.insertMany name true i docs).2.2.1 = refusals i stopped.2 := by
  induction docs generalizing c i with
  | nil => simp [insertMany, storedIds, refusals, throughFirstRefusal]
  | cons doc rest ih =>
    rcases inserted : c.insert name doc with e | ⟨c', id, bytes⟩
    · simp [insertMany_ordered_cons_error inserted, insertEach_cons_error inserted, throughFirstRefusal,
        storedIds, refusals]
    · obtain ⟨same, ids, failures⟩ := ih c' (i + 1)
      simp only [insertEach_cons_ok inserted, throughFirstRefusal, List.take_succ_cons] at same ids failures ⊢
      simp [insertMany_cons_ok inserted, same, ids, failures, storedIds, refusals]

/-- An ordered bulk insert refuses at most one document, the one right after those it stored. -/
theorem insertMany_ordered_refusal (docs : List Value) (c : Collection) (i : Nat) :
    (c.insertMany name true i docs).2.2.1.length ≤ 1 ∧
      ∀ f ∈ (c.insertMany name true i docs).2.2.1, f.index = i + (c.insertMany name true i docs).2.1.length := by
  induction docs generalizing c i with
  | nil => simp [insertMany]
  | cons doc rest ih =>
    rcases inserted : c.insert name doc with e | ⟨c', id, bytes⟩
    · simp [insertMany_ordered_cons_error inserted]
    · obtain ⟨atMostOne, after⟩ := ih c' (i + 1)
      rw [insertMany_cons_ok inserted]
      refine ⟨atMostOne, fun f refused => ?_⟩
      rw [after f refused, List.length_cons]
      omega

theorem documents_subset_insert {c c' : Collection} {doc : Value} {id : Int64} {bytes : Nat}
    (inserted : c.insert name doc = .ok (c', id, bytes)) : c.documents ⊆ c'.documents := by
  obtain ⟨-, -, -, rfl⟩ := insert_eq_ok inserted
  exact fun p stored => mem_insertByKey.mpr (.inr stored)

theorem documents_subset_insertMany (ordered : Bool) (docs : List Value) (c : Collection) (i : Nat) :
    c.documents ⊆ (c.insertMany name ordered i docs).1.documents := by
  induction docs generalizing c i with
  | nil => exact List.Subset.refl _
  | cons doc rest ih =>
    rcases inserted : c.insert name doc with e | ⟨c', id, bytes⟩
    · cases ordered
      · rw [insertMany_unordered_cons_error inserted]
        exact ih c (i + 1)
      · rw [insertMany_ordered_cons_error inserted]
        exact List.Subset.refl _
    · rw [insertMany_cons_ok inserted]
      exact List.Subset.trans (documents_subset_insert inserted) (ih c' (i + 1))

end Collection

/-- A bulk insert is single inserts in turn. Without order it leaves the documents as single inserts
of every document, refusals set aside, would; it answers the ids they stored, in order, and each
refused document by its position, in increasing order, with the error its single insert gives, so
every document is either stored or refused. In order it is the same run cut right after the first
refusal: it refuses at most one document, the one right after those it stored. Neither ever
replaces a stored document. -/
theorem bulk_insert_refines_single_inserts (name : String) (c : Collection) (docs : List Value) :
    let single := c.insertEach name docs
    let unordered := c.insertMany name false 0 docs
    let ordered := c.insertMany name true 0 docs
    let stopped := c.insertEach name (docs.take (throughFirstRefusal single.2))
    (unordered.1 = single.1 ∧ unordered.2.1 = storedIds single.2 ∧ unordered.2.2.1 = refusals 0 single.2 ∧
      unordered.2.1.length + unordered.2.2.1.length = docs.length ∧
      (unordered.2.2.1.map (·.index)).Pairwise (· < ·)) ∧
    (ordered.1 = stopped.1 ∧ ordered.2.1 = storedIds stopped.2 ∧ ordered.2.2.1 = refusals 0 stopped.2 ∧
      ordered.2.2.1.length ≤ 1 ∧ ∀ f ∈ ordered.2.2.1, f.index = ordered.2.1.length) ∧
    c.documents ⊆ unordered.1.documents ∧ c.documents ⊆ ordered.1.documents := by
  intro single unordered ordered stopped
  obtain ⟨same, ids, failures⟩ := Collection.insertMany_unordered docs c 0
  obtain ⟨sameStopped, idsStopped, failuresStopped⟩ := Collection.insertMany_ordered docs c 0
  obtain ⟨atMostOne, after⟩ := Collection.insertMany_ordered_refusal docs c 0
  refine ⟨⟨same, ids, failures, ?_, failures ▸ refusals_ascending _ 0⟩,
    ⟨sameStopped, idsStopped, failuresStopped, atMostOne, fun f refused => by simpa using after f refused⟩,
    Collection.documents_subset_insertMany false docs c 0, Collection.documents_subset_insertMany true docs c 0⟩
  rw [ids, failures, length_storedIds_add_refusals, Collection.length_insertEach]

end GameVault.Database
