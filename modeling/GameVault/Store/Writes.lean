import GameVault.Store.Reads

namespace GameVault

open Database

/-- What an update did. -/
inductive UpdateOutcome where
  /-- Nothing changed since the last save, so nothing was written. -/
  | unchanged
  | saved
  /-- Written, but the connection does not acknowledge writes. -/
  | unacknowledged
  deriving DecidableEq

/-- What an index request did: created the index, or found one already there. -/
inductive IndexOutcome where
  | created (name : String)
  | alreadyExists (name : String)

/-- The name of the index an outcome is about. -/
def IndexOutcome.name : IndexOutcome → String
  | .created n | .alreadyExists n => n

namespace Store

def int64Max : Nat := 9223372036854775807

/-- Saves a stamped entity's document under its id. Answers the write's outcome and the entity,
marked saved when the write was acknowledged. -/
def save (stamped : Entity) (change : ChangeSet) (doc : Value) : StoreOp (ReplaceOutcome × Entity) := do
  let h ← collection stamped.kind
  let r ← database (h.replaceOne (Filter.byId stamped.id) doc (← get).1.config.upsert)
  tally fun s => { s with writes := s.writes + 1 }
  pure (r, if r.acknowledged then stamped.markSaved change.fingerprint else stamped)

/-- Adds an entity, stamping its creation. Answers the number of documents written. -/
def add (e : Entity) : StoreOp (Nat × Entity) := do
  let _ ← collection e.kind
  let stamped := { e with audit := e.audit.markCreated (e.audit.nextStamp (← now)) }
  let change ← codec stamped.checkChanges
  let (r, e') ← save stamped change change.document
  pure (r.written, e')

/-- Updates a changed entity, stamping and counting the update. -/
def update (e : Entity) : StoreOp (UpdateOutcome × Entity) := do
  let change ← codec e.checkChanges
  if !change.changed then
    tally fun s => { s with skippedUpdates := s.skippedUpdates + 1 }
    return (.unchanged, e)
  let _ ← collection e.kind
  let stamp := e.audit.nextUpdateStamp (← now)
  let stamped := { e with audit := e.audit.markUpdated stamp }
  let count := if stamped.audit.updateCount.toNat ≤ int64Max then stamped.audit.updateCount.toInt64
    else Int64.maxValue
  let doc := ((change.document.set updateTimeField (.int stamp)).2.set updateCountField (.int count)).2
  let (r, e') ← save stamped change doc
  pure (if r.acknowledged then .saved else .unacknowledged, e')

/-- Deletes an entity softly, stamping the deletion. Answers the number of documents written. -/
def delete (e : Entity) : StoreOp (Nat × Entity) := do
  let _ ← collection e.kind
  let stamped := { e with audit := e.audit.markDeleted (e.audit.nextDeleteStamp (← now)) }
  let change ← codec stamped.checkChanges
  let (r, e') ← save stamped change change.document
  tally fun s => { s with softDeletes := s.softDeletes + 1 }
  pure (r.written, e')

/-- Deletes softly the first live entity a filter selects. -/
def deleteWhere (k : Kind) (f : Filter) : StoreOp Nat := do
  match ← findOne k f with
  | some e => pure (← delete e).1
  | none => pure 0

/-- Removes the first entity a filter selects, deleted or not. -/
def hardDeleteOne (k : Kind) (f : Filter) : StoreOp Nat := do
  let h ← collection k
  let n ← database (h.deleteOne f)
  tally fun s => { s with hardDeletes := s.hardDeletes + n }
  pure n

/-- Removes every entity a filter selects, deleted or not. -/
def hardDeleteMany (k : Kind) (f : Filter) : StoreOp Nat := do
  let h ← collection k
  let n ← database (h.deleteMany f)
  tally fun s => { s with hardDeletes := s.hardDeletes + n }
  pure n

/-- Stamps the creation of each entity in turn and checks it. Answers the entities (stamped up to
and including a failing one) and, unless one failed, each one's change set. -/
def stampBatch (now : Int64) : List Entity → List Entity × Except CodecError (List ChangeSet)
  | [] => ([], .ok [])
  | e :: rest =>
    let stamped := { e with audit := e.audit.markCreated (e.audit.nextStamp now) }
    match stamped.checkChanges with
    | .error err => (stamped :: rest, .error err)
    | .ok change =>
      let (es, r) := stampBatch now rest
      (stamped :: es, r.map (change :: ·))

/-- Marks saved the entities at positions before `attempted` that were not refused. -/
def markBatch (attempted : Nat) (refused : List Nat) :
    Nat → List Entity → List ChangeSet → List Entity
  | i, e :: es, c :: cs =>
    (if i < attempted && !refused.contains i then e.markSaved c.fingerprint else e) ::
      markBatch attempted refused (i + 1) es cs
  | _, es, _ => es

/-- Adds entities of a kind as one batch. Answers the entities as the batch left them, and whether
it failed. -/
def addBatch (k : Kind) (entities : List Entity) :
    StateM (Store × World) (List Entity × Except StoreError Unit) := do
  if entities.isEmpty then
    return (entities, .error (.invalidOperation "add_batch needs at least one state"))
  match ← (collection k).run with
  | .error e => return (entities, .error e)
  | .ok h =>
    let (stamped, checked) := stampBatch (← get).2.clock entities
    match checked with
    | .error e => return (stamped, .error (.codec e))
    | .ok changes =>
      let total := entities.length
      let ordered := (← get).1.config.ordered
      match ← (database (h.insertMany (changes.map (·.document)) ordered)).run with
      | .error e => return (stamped, .error e)
      | .ok r =>
        let _ ← (tally fun s => { s with writes := s.writes + 1 }).run
        let attempted := if ordered then ((r.failures.head?.map (·.index)).getD total) else total
        let saved :=
          if r.acknowledged then markBatch attempted (r.failures.map (·.index)) 0 stamped changes
          else stamped
        match r.failures with
        | [] => return (saved, .ok ())
        | first :: _ =>
          let failed := total - r.insertedIds.length
          let _ ← (tally fun s => { s with batchFailures := s.batchFailures + failed }).run
          return (saved, .error (.batchPartiallyFailed k.collection failed total first.error))

/-- Declares an index on one field, unless an index whose name starts with the field exists. -/
def createIndex (k : Kind) (field : String) (ascending : Bool) : StoreOp IndexOutcome := do
  let h ← collection k
  let existing ← database h.listIndexes
  match existing.find? (fun i => field.isPrefixOf i.name) with
  | some i => pure (.alreadyExists i.name)
  | none =>
    tryCatch (do pure (.created (← database (h.createIndex { keys := [⟨field, ascending⟩] }))))
      fun e => match e with
        | .driver (.indexExists name) => pure (.alreadyExists name)
        | e => throw e

/-- Removes an index of a kind's collection. -/
def dropIndex (k : Kind) (name : String) : StoreOp Unit := do
  let h ← collection k
  database (h.dropIndex name)

/-- The indexes of a kind's collection. -/
def listIndexes (k : Kind) : StoreOp (List IndexInfo) := do
  let h ← collection k
  database h.listIndexes

/-- Whether the store's connection is closed. -/
def isClosed : StoreOp Bool := do
  let (s, w) ← get
  pure (w.connection s.connection).closed

/-- Closes the store's connection and forgets its handles; closing a closed store does nothing. -/
def close : StoreOp Unit := do
  if ← isClosed then return
  database (Database.close (← get).1.connection)
  modify fun (s, w) => ({ s with handles := [] }, w)

end Store

end GameVault
