import GameVault.Database.Error
import GameVault.Query.Sort
import GameVault.Cbor.Encode
import GameVault.Value.Diagnostic
import GameVault.Sorting.Hybrid

namespace GameVault

namespace Database

def idField : String := "id"

/-- Documents in increasing order of id, and declared indexes in order of creation. -/
structure Collection where
  documents : List (Int64 × Value) := []
  indexes : List IndexInfo := []
  deriving Inhabited

/-- What `replaceOne` did: documents matched and changed, and the id of an inserted document. -/
structure ReplaceOutcome where
  acknowledged : Bool := false
  matched : Nat := 0
  modified : Nat := 0
  upsertedId : Option Int64 := none
  deriving Inhabited

/-- Documents written by a replacement: one if it changed a document or inserted one. -/
def ReplaceOutcome.written (r : ReplaceOutcome) : Nat :=
  r.modified + if r.upsertedId.isSome then 1 else 0

/-- One document of a bulk insert that was refused, by its position. -/
structure BulkFailure where
  index : Nat
  error : DriverError

/-- What a bulk insert did: the ids stored, in order, and the documents refused. -/
structure BulkOutcome where
  acknowledged : Bool
  insertedIds : List Int64
  failures : List BulkFailure

/-- Whether every document of a bulk insert was stored. -/
def BulkOutcome.complete (r : BulkOutcome) : Bool := r.failures.isEmpty

/-- The size of a document to store: its canonical encoding's length. Only a map can be stored. -/
def encodedLength (name : String) (doc : Value) : Except DriverError Nat :=
  match doc with
  | .map _ =>
    match Cbor.encode doc with
    | .ok bs => .ok bs.length
    | .error e => .error (.codec e)
  | other =>
    .error (.invalidDocument ("expected a map in collection " ++ name ++ ", got " ++ other.kind))

/-- The integer id of a document. -/
def idOf (name : String) (doc : Value) : Except DriverError Int64 :=
  match doc.get? idField with
  | some (.int n) => .ok n
  | _ => .error (.missingId name)

/-- Inserts a keyed document into a list kept in increasing order of key. -/
def insertByKey (id : Int64) (doc : Value) : List (Int64 × Value) → List (Int64 × Value)
  | [] => [(id, doc)]
  | (k, d) :: rest =>
    if id.toInt < k.toInt then (id, doc) :: (k, d) :: rest else (k, d) :: insertByKey id doc rest

/-- Replaces the document stored under a key. -/
def replaceByKey (id : Int64) (doc : Value) : List (Int64 × Value) → List (Int64 × Value)
  | [] => []
  | (k, d) :: rest => if k = id then (k, doc) :: rest else (k, d) :: replaceByKey id doc rest

namespace Collection

def values (c : Collection) : List Value := c.documents.map (·.2)

def contains (c : Collection) (id : Int64) : Bool := c.documents.any (·.1 = id)

def lookup (c : Collection) (id : Int64) : Option Value := (c.documents.find? (·.1 = id)).map (·.2)

/-- Stores a new document, answering its id and size. The document must be a map with an integer id
that is not yet stored. -/
def insert (name : String) (c : Collection) (doc : Value) :
    Except DriverError (Collection × Int64 × Nat) := do
  let bytes ← encodedLength name doc
  let id ← idOf name doc
  if c.contains id then throw (.duplicateKey name id)
  pure ({ c with documents := insertByKey id doc c.documents }, id, bytes)

/-- The documents that a filter selects, sorted stably by the options' keys if any (as wide
elements, blocks of four), then the skip and the limit applied (a limit of zero means none); `none`
when the sort finds the order of the keys inconsistent and gives up. -/
def find (c : Collection) (f : Filter) (o : FindOptions) : Option (List Value) := do
  let selected := c.values.filter f.admits
  let sorted ←
    if o.sort.isEmpty then pure selected
    else Sorting.sort (fun a b => compareDocuments o.sort a b == .lt) ⟨false⟩ selected
  let rest := sorted.drop o.skip
  match o.limit with
  | some l => if l = 0 then pure rest else pure (rest.take l)
  | none => pure rest

def count (c : Collection) (f : Filter) : Nat := (c.values.filter f.admits).length

/-- Stores documents in turn. A refused document is reported by position; when `ordered`, the
first refusal ends the insert. Answers the ids stored, the refusals and the bytes stored. -/
def insertMany (name : String) (ordered : Bool) :
    Collection → Nat → List Value → Collection × List Int64 × List BulkFailure × Nat
  | c, _, [] => (c, [], [], 0)
  | c, i, doc :: rest =>
    match c.insert name doc with
    | .ok (c', id, bytes) =>
      let (c'', ids, failures, total) := insertMany name ordered c' (i + 1) rest
      (c'', id :: ids, failures, bytes + total)
    | .error e =>
      if ordered then (c, [], [⟨i, e⟩], 0)
      else
        let (c'', ids, failures, total) := insertMany name ordered c (i + 1) rest
        (c'', ids, ⟨i, e⟩ :: failures, total)

/-- The document a replacement targets: under an id filter the document with that id if the filter
selects it, otherwise the first document the filter selects. -/
def target (c : Collection) (f : Filter) : Option Value :=
  match f.idHint with
  | some id => (c.lookup id).filter f.admits
  | none => c.values.find? f.admits

/-- A replacement made to keep the id `id`: without an id it takes `id`; with another id it is
refused. -/
def keepId (id : Int64) (replacement : Value) : Except DriverError Value :=
  match replacement.get? idField with
  | none => .ok (replacement.set idField (.int id)).2
  | some (.int n) =>
    if n = id then .ok replacement
    else .error (.invalidDocument ("replacement would change id " ++ toString id.toInt ++ " to " ++
      (Value.int n).diagnostic))
  | some other =>
    .error (.invalidDocument ("replacement would change id " ++ toString id.toInt ++ " to " ++
      other.diagnostic))

/-- Replaces the document a filter targets. With no target and `upsert`, the replacement is
inserted, taking the filter's id if it has none. Answers the outcome and the replacement's size. -/
def replaceOne (name : String) (c : Collection) (f : Filter) (replacement : Value) (upsert : Bool) :
    Except DriverError (Collection × ReplaceOutcome × Nat) := do
  let bytes ← encodedLength name replacement
  match c.target f with
  | some current =>
    let id ← idOf name current
    let doc ← keepId id replacement
    let modified := !(current == doc)
    let c' := if modified then { c with documents := replaceByKey id doc c.documents } else c
    pure (c', { acknowledged := true, matched := 1, modified := if modified then 1 else 0 }, bytes)
  | none =>
    if upsert then
      let doc :=
        match replacement.get? idField, f.idHint with
        | none, some id => (replacement.set idField (.int id)).2
        | _, _ => replacement
      let (c', id, _) ← c.insert name doc
      pure (c', { acknowledged := true, upsertedId := some id }, bytes)
    else
      pure (c, { acknowledged := true }, bytes)

/-- Removes the first document a filter selects; answers how many were removed. -/
def deleteOne (c : Collection) (f : Filter) : Collection × Nat :=
  match c.documents.find? (fun (_, d) => f.admits d) with
  | some (id, _) => ({ c with documents := c.documents.filter (·.1 ≠ id) }, 1)
  | none => (c, 0)

/-- Removes every document a filter selects; answers how many were removed. -/
def deleteMany (c : Collection) (f : Filter) : Collection × Nat :=
  let kept := c.documents.filter fun (_, d) => !f.admits d
  ({ c with documents := kept }, c.documents.length - kept.length)

/-- Declares an index; its name must be new and it needs a key. -/
def createIndex (c : Collection) (m : IndexModel) : Except DriverError (Collection × String) :=
  if m.keys.isEmpty then .error (.invalidDocument "index needs at least one key")
  else
    let info := m.info
    if c.indexes.any (·.name = info.name) then .error (.indexExists info.name)
    else .ok ({ c with indexes := c.indexes ++ [info] }, info.name)

/-- Removes the index of a name. -/
def dropIndex (c : Collection) (name : String) : Except DriverError Collection :=
  if c.indexes.any (·.name = name) then
    .ok { c with indexes := c.indexes.eraseP (·.name = name) }
  else .error (.indexNotFound name)

end Collection

end Database

end GameVault
