import GameVault.Database.Address
import GameVault.Database.Collection

namespace GameVault

namespace Database

/-- Operation counters of a connection. -/
structure Counters where
  reads : Nat := 0
  writes : Nat := 0
  deletes : Nat := 0
  indexOperations : Nat := 0
  bytesWritten : Nat := 0
  deriving Inhabited, DecidableEq

namespace Counters

def read (c : Counters) : Counters := { c with reads := c.reads + 1 }

def write (bytes : Nat) (c : Counters) : Counters :=
  { c with writes := c.writes + 1, bytesWritten := c.bytesWritten + bytes }

def delete (c : Counters) : Counters := { c with deletes := c.deletes + 1 }

def index (c : Counters) : Counters := { c with indexOperations := c.indexOperations + 1 }

end Counters

/-- Where a database lives: its server, the host of the connection string, and its name. -/
structure DatabaseKey where
  server : Nat
  host : String
  name : String
  deriving DecidableEq, Inhabited

/-- A connection to one database. -/
structure Connection where
  database : DatabaseKey
  acknowledged : Bool
  closed : Bool := false
  counters : Counters := {}
  deriving Inhabited

/-- A collection handle: the connection that gave it out, the stored collection it refers to, and
the collection's name. -/
structure Handle where
  connection : Nat
  slot : Nat
  name : String
  deriving DecidableEq, Inhabited

/-- The servers' whole state. Catalogs map each database to its collections by name, in order of
name; slots number the stored collections; connections are numbered in order of opening. -/
structure World where
  /-- The instant the servers take as now, in milliseconds since the epoch. -/
  clock : Int64 := 1700000000000
  servers : Nat := 0
  catalogs : List (DatabaseKey × List (String × Nat)) := []
  slots : Array Collection := #[]
  connections : Array Connection := #[]
  deriving Inhabited

/-- A database operation: it may fail, and it keeps what it changed before failing. -/
abbrev Op := ExceptT DriverError (StateM World)

/-- Inserts a name into a catalog kept in order of name. -/
def insertByName (name : String) (slot : Nat) : List (String × Nat) → List (String × Nat)
  | [] => [(name, slot)]
  | (n, s) :: rest =>
    if name < n then (name, slot) :: (n, s) :: rest else (n, s) :: insertByName name slot rest

namespace World

def newServer (w : World) : Nat × World := (w.servers, { w with servers := w.servers + 1 })

def catalog (w : World) (key : DatabaseKey) : List (String × Nat) :=
  ((w.catalogs.find? (·.1 = key)).map (·.2)).getD []

/-- Replaces the catalog of a database. -/
def setCatalog (w : World) (key : DatabaseKey) (entries : List (String × Nat)) : World :=
  if w.catalogs.any (·.1 = key) then
    { w with catalogs := w.catalogs.map fun (k, e) => if k = key then (k, entries) else (k, e) }
  else { w with catalogs := w.catalogs ++ [(key, entries)] }

def connection (w : World) (i : Nat) : Connection := w.connections.getD i default

def modifyConnection (w : World) (i : Nat) (f : Connection → Connection) : World :=
  { w with connections := w.connections.modify i f }

def collection (w : World) (slot : Nat) : Collection := w.slots.getD slot default

/-- Replaces a stored collection. -/
def setCollection (w : World) (slot : Nat) (c : Collection) : World :=
  { w with slots := w.slots.set! slot c }

/-- Opens a connection to a database of a server, creating the database on first use. Answers the
connection's number. -/
def connect (w : World) (server : Nat) (cs database : String) : Except DriverError (Nat × World) := do
  let address ← Address.parse cs
  checkDatabaseName database
  let key : DatabaseKey := ⟨server, address.host, database⟩
  let w := if w.catalogs.any (·.1 = key) then w else w.setCatalog key []
  pure (w.connections.size,
    { w with connections := w.connections.push { database := key, acknowledged := address.acknowledged } })

end World

def ensureOpen (conn : Nat) : Op Unit := do
  if ((← get).connection conn).closed then throw .closed

def count (conn : Nat) (f : Counters → Counters) : Op Unit :=
  modify fun w => w.modifyConnection conn fun c => { c with counters := f c.counters }

/-- Whether a collection name is refused: empty, holding `$` or NUL, or in the `system.` space. -/
def invalidCollectionName (name : String) : Bool :=
  name.isEmpty || name.toList.any (fun c => c = '$' || c = '\x00') || "system.".isPrefixOf name

/-- A handle on a collection of the connection's database, created empty on first use. -/
def openCollection (conn : Nat) (name : String) : Op Handle := do
  ensureOpen conn
  if invalidCollectionName name then throw (.invalidName name)
  let w ← get
  let key := (w.connection conn).database
  let entries := w.catalog key
  match entries.lookup name with
  | some slot => pure ⟨conn, slot, name⟩
  | none =>
    let slot := w.slots.size
    set ({ w with slots := w.slots.push {} }.setCatalog key (insertByName name slot entries))
    pure ⟨conn, slot, name⟩

/-- The names of the connection's collections, in order. -/
def listCollections (conn : Nat) : Op (List String) := do
  ensureOpen conn
  let w ← get
  pure ((w.catalog (w.connection conn).database).map (·.1))

/-- Removes a collection from the connection's database. Handles on it keep working on it. -/
def dropCollection (conn : Nat) (name : String) : Op Unit := do
  ensureOpen conn
  let w ← get
  let key := (w.connection conn).database
  let entries := w.catalog key
  if entries.any (·.1 = name) then set (w.setCatalog key (entries.filter (·.1 ≠ name)))
  else throw (.collectionNotFound name)

/-- Closes a connection; closing twice is harmless. -/
def close (conn : Nat) : Op Unit :=
  modify fun w => w.modifyConnection conn fun c => { c with closed := true }

namespace Handle

def current (h : Handle) : Op Collection := do pure ((← get).collection h.slot)

/-- Replaces the stored collection a handle refers to. -/
def store (h : Handle) (c : Collection) : Op Unit := modify (·.setCollection h.slot c)

/-- Documents a filter selects, with find options. Counts a read, also when the sort gives up. -/
def find (h : Handle) (f : Filter) (o : FindOptions) : Op (List Value) := do
  ensureOpen h.connection
  count h.connection Counters.read
  match (← h.current).find f o with
  | some docs => pure docs
  | none => throw .inconsistentOrder

/-- The number of documents a filter selects. Counts a read. -/
def count (h : Handle) (f : Filter) : Op Nat := do
  ensureOpen h.connection
  Database.count h.connection Counters.read
  pure ((← h.current).count f)

/-- Stores a new document; answers its id. Counts a write of its size. -/
def insertOne (h : Handle) (doc : Value) : Op Int64 := do
  ensureOpen h.connection
  match (← h.current).insert h.name doc with
  | .ok (c, id, bytes) =>
    h.store c
    Database.count h.connection (Counters.write bytes)
    pure id
  | .error e => throw e

/-- Stores documents in turn, and counts one write of all bytes stored. -/
def insertMany (h : Handle) (docs : List Value) (ordered : Bool) : Op BulkOutcome := do
  ensureOpen h.connection
  let (c, ids, failures, bytes) := (← h.current).insertMany h.name ordered 0 docs
  h.store c
  Database.count h.connection (Counters.write bytes)
  pure ⟨((← get).connection h.connection).acknowledged, ids, failures⟩

/-- Replaces the document a filter targets, or inserts it under `upsert`. Counts a write of the
replacement's size. An unacknowledged connection answers an empty outcome. -/
def replaceOne (h : Handle) (f : Filter) (doc : Value) (upsert : Bool) : Op ReplaceOutcome := do
  ensureOpen h.connection
  match (← h.current).replaceOne h.name f doc upsert with
  | .ok (c, r, bytes) =>
    h.store c
    Database.count h.connection (Counters.write bytes)
    if ((← get).connection h.connection).acknowledged then pure r else pure {}
  | .error e => throw e

/-- Removes the first document a filter selects. Counts a delete. -/
def deleteOne (h : Handle) (f : Filter) : Op Nat := do
  ensureOpen h.connection
  Database.count h.connection Counters.delete
  let (c, n) := (← h.current).deleteOne f
  h.store c
  pure n

/-- Removes every document a filter selects. Counts a delete. -/
def deleteMany (h : Handle) (f : Filter) : Op Nat := do
  ensureOpen h.connection
  Database.count h.connection Counters.delete
  let (c, n) := (← h.current).deleteMany f
  h.store c
  pure n

/-- The declared indexes. Counts an index operation. -/
def listIndexes (h : Handle) : Op (List IndexInfo) := do
  ensureOpen h.connection
  Database.count h.connection Counters.index
  pure (← h.current).indexes

/-- Declares an index; answers its name. Counts an index operation, also when refused. -/
def createIndex (h : Handle) (m : IndexModel) : Op String := do
  ensureOpen h.connection
  Database.count h.connection Counters.index
  match (← h.current).createIndex m with
  | .ok (c, name) => h.store c; pure name
  | .error e => throw e

/-- Removes an index by name. Counts an index operation, also when refused. -/
def dropIndex (h : Handle) (name : String) : Op Unit := do
  ensureOpen h.connection
  Database.count h.connection Counters.index
  match (← h.current).dropIndex name with
  | .ok c => h.store c
  | .error e => throw e

end Handle

end Database

end GameVault
