import GameVault.Database.World
import GameVault.Entity.Change

namespace GameVault

open Database

/-- Why a store operation failed. -/
inductive StoreError where
  | driver (e : DriverError)
  | codec (e : CodecError)
  /-- A collection already owned by another kind. -/
  | collectionConflict (collection existing requested : String)
  /-- Some entities of a batch were not stored; the first refusal is kept. -/
  | batchPartiallyFailed (collection : String) (failed total : Nat) (first : DriverError)
  | invalidOperation (message : String)

namespace StoreError

/-- The wording of a store error. -/
def message : StoreError → String
  | .driver e => "driver error: " ++ e.message
  | .codec e => "codec error: " ++ e.message
  | .collectionConflict c existing requested =>
    "collection " ++ c ++ " is already used by " ++ existing ++ ", cannot register " ++ requested
  | .batchPartiallyFailed c failed total first =>
    toString failed ++ " of " ++ toString total ++ " states failed to insert into " ++ c ++ ": " ++
      first.message
  | .invalidOperation m => "invalid operation: " ++ m

/-- The cause of a store error as a dotted path. -/
def kind : StoreError → String
  | .driver e => "Driver." ++ e.kind
  | .codec e => "Codec." ++ e.kind
  | .collectionConflict .. => "CollectionConflict"
  | .batchPartiallyFailed .. => "BatchPartiallyFailed"
  | .invalidOperation _ => "InvalidOperation"

/-- The record form of a store error. -/
def diagnostic : StoreError → String
  | .driver e => "Driver(" ++ e.diagnostic ++ ")"
  | .codec e => "Codec(" ++ e.diagnostic ++ ")"
  | .collectionConflict c existing requested =>
    Quoted.record "CollectionConflict" [("collection", Quoted.quote c),
      ("existing", Quoted.quote existing), ("requested", Quoted.quote requested)]
  | .batchPartiallyFailed c failed total first =>
    Quoted.record "BatchPartiallyFailed" [("collection", Quoted.quote c), ("failed", toString failed),
      ("total", toString total), ("first_error", first.diagnostic)]
  | .invalidOperation m => Quoted.record "InvalidOperation" [("message", Quoted.quote m)]

/-- Whether the error says the connection is closed. -/
def isClosed : StoreError → Bool
  | .driver .closed => true
  | _ => false

end StoreError

/-- How a store connects and writes. -/
structure StoreConfig where
  connectionString : String := "memory://localhost"
  database : String := "game"
  /-- Whether saving an entity that is not stored inserts it. -/
  upsert : Bool := true
  /-- Whether a batch stops at its first refused entity. -/
  ordered : Bool := false
  /-- Page size used when a request gives none that is positive. -/
  defaultPageSize : Nat := GameVault.defaultPageSize
  deriving Inhabited

/-- Counters of a store. -/
structure StoreStats where
  loads : Nat := 0
  writes : Nat := 0
  skippedUpdates : Nat := 0
  softDeletes : Nat := 0
  hardDeletes : Nat := 0
  batchFailures : Nat := 0
  deriving Inhabited, DecidableEq

/-- A store over one connection. -/
structure Store where
  connection : Nat
  config : StoreConfig
  /-- Collection names and the kind that owns each, in order of registration. -/
  registry : List (String × Kind) := []
  /-- Handles opened so far, by collection name. -/
  handles : List (String × Handle) := []
  stats : StoreStats := {}
  deriving Inhabited

/-- An operation of a store: over the store and the database, failing with a store error. -/
abbrev StoreOp := ExceptT StoreError (StateM (Store × World))

namespace Store

/-- Runs a database operation inside a store operation. -/
def database {α : Type} (op : Op α) : StoreOp α := do
  let (store, world) ← get
  let (r, world') := (op.run).run world
  set (store, world')
  match r with
  | .ok a => pure a
  | .error e => throw (.driver e)

/-- Fails with a codec error. -/
def codec {α : Type} (r : Except CodecError α) : StoreOp α :=
  match r with
  | .ok a => pure a
  | .error e => throw (.codec e)

def tally (f : StoreStats → StoreStats) : StoreOp Unit :=
  modify fun (s, w) => ({ s with stats := f s.stats }, w)

def now : StoreOp Int64 := do pure (← get).2.clock

/-- The collection of a kind, registering the kind on first use. -/
def resolve (k : Kind) : StoreOp String := do
  let (store, world) ← get
  match store.registry.lookup k.collection with
  | some owner =>
    if owner = k then pure k.collection
    else throw (.collectionConflict k.collection owner.typeName k.typeName)
  | none =>
    if k.collection.isEmpty then
      throw (.invalidOperation (k.typeName ++ " declares an empty collection name"))
    set ({ store with registry := store.registry ++ [(k.collection, k)] }, world)
    pure k.collection

def registered (s : Store) : List String := (s.registry.map (·.1)).mergeSort (· ≤ ·)

/-- The handle on a kind's collection, opened on first use. -/
def collection (k : Kind) : StoreOp Handle := do
  let name ← resolve k
  match (← get).1.handles.lookup name with
  | some h => pure h
  | none =>
    let h ← database (openCollection (← get).1.connection name)
    modify fun (s, w) => ({ s with handles := s.handles ++ [(name, h)] }, w)
    pure h

end Store

end GameVault
