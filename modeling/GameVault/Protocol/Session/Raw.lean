import GameVault.Protocol.Session.Basic

namespace GameVault

namespace Protocol

open Outcome Database

def stepConnection (r : Message) : Step Nat := do
  connectionAt (← reading (optD r "conn" u64 0))

/-- The collection handle a step works on. -/
def stepHandle (r : Message) : Step Handle := do
  match ← reading (opt r "h" label) with
  | some name =>
    match (← get).handles.lookup name with
    | some h => pure h
    | none => refuse ("no handle " ++ quoted name)
  | none =>
    let name ← reading (req r "coll" text)
    let conn ← stepConnection r
    runDatabase (openCollection conn name)

/-- Opens a connection on a server; answers its number among the session's connections. -/
def openConnection (server : Nat) (cs db : String) : Step Nat := do
  let s ← get
  match s.world.connect server cs db with
  | .error e => throw (.driver e)
  | .ok (conn, world) =>
    set { s with world, connections := s.connections ++ [conn] }
    pure s.connections.length

/-- What a bulk insert did. -/
def bulkMessage (r : BulkOutcome) : Message :=
  .obj [("acknowledged", .bool r.acknowledged),
    ("inserted_ids", listOf (fun id => .int id.toInt) r.insertedIds),
    ("complete", .bool r.complete),
    ("failures", listOf (fun f => .obj [("index", .nat f.index),
      ("error", (Failure.driver f.error).toMessage)]) r.failures)]

/-- What a replacement did. -/
def replaceMessage (r : ReplaceOutcome) : Message :=
  .obj [("acknowledged", .bool r.acknowledged), ("matched", .nat r.matched),
    ("modified", .nat r.modified), ("upserted_id", optionOf (fun id => .int id.toInt) r.upsertedId),
    ("written", .nat r.written)]

/-- Runs a raw step, if `op` names one. -/
def rawStep (op : String) (r : Message) : Option (Step Message) :=
  match op with
  | "connect" => some do
    let cs ← reading (req r "cs" text)
    let db ← reading (req r "db" text)
    let i ← openConnection (← get).server cs db
    pure (.obj [("conn", .nat i), ("database", .str db)])
  | "open_private" => some do
    let db ← reading (req r "db" text)
    let s ← get
    let (server, world) := s.world.newServer
    set { s with world }
    let i ← openConnection server "memory://local" db
    pure (.obj [("conn", .nat i)])
  | "collection" => some do
    let h ← stepHandle r
    if let some keep := textIfAny r "as" then
      modify fun s => { s with handles := bind keep h s.handles }
    pure (.obj [("name", .str h.name)])
  | "list_collections" => some do
    let conn ← stepConnection r
    pure (listOf .str (← runDatabase (listCollections conn)))
  | "drop_collection" => some do
    let conn ← stepConnection r
    let name ← reading (req r "name" text)
    runDatabase (dropCollection conn name)
    pure (.str "ok")
  | "close" => some do
    let conn ← stepConnection r
    runDatabase (close conn)
    pure (.obj [("closed", .bool ((← get).world.connection conn).closed)])
  | "is_closed" => some do
    let conn ← stepConnection r
    pure (.bool ((← get).world.connection conn).closed)
  | "driver_stats" => some do
    let conn ← stepConnection r
    pure (countersMessage ((← get).world.connection conn).counters)
  | "find" => some do
    let h ← stepHandle r
    let f ← reading (filterOr r)
    let sort ← reading (optD r "sort" sortKeys [])
    let skip ← reading (optD r "skip" u64 0)
    let limit ← reading (opt r "limit" u64)
    let docs ← runDatabase (h.find f { sort, skip, limit })
    pure (listOf shownDocument docs)
  | "count" => some do
    let h ← stepHandle r
    let f ← reading (filterOr r)
    pure (.nat (← runDatabase (h.count f)))
  | "insert_one" => some do
    let h ← stepHandle r
    let doc ← reading (req r "doc" value)
    pure (.int (← runDatabase (h.insertOne doc)).toInt)
  | "insert_many" => some do
    let h ← stepHandle r
    let docs ← reading (req r "docs" values)
    let ordered ← reading (optD r "ordered" bool true)
    pure (bulkMessage (← runDatabase (h.insertMany docs ordered)))
  | "replace_one" => some do
    let h ← stepHandle r
    let f ← reading (filterOr r)
    let upsert ← reading (optD r "upsert" bool false)
    let doc ← reading (req r "doc" value)
    pure (replaceMessage (← runDatabase (h.replaceOne f doc upsert)))
  | "delete_one" => some do
    let h ← stepHandle r
    let f ← reading (filterOr r)
    pure (.nat (← runDatabase (h.deleteOne f)))
  | "delete_many" => some do
    let h ← stepHandle r
    let f ← reading (filterOr r)
    pure (.nat (← runDatabase (h.deleteMany f)))
  | "list_indexes" => some do
    let h ← stepHandle r
    pure (listOf indexInfoMessage (← runDatabase h.listIndexes))
  | "create_index" => some do
    let h ← stepHandle r
    let keys ← reading (req r "keys" sortKeys)
    let name ← reading (opt r "name" label)
    pure (.str (← runDatabase (h.createIndex { keys, name })))
  | "drop_index" => some do
    let h ← stepHandle r
    let name ← reading (req r "name" text)
    runDatabase (h.dropIndex name)
    pure (.str "ok")
  | _ => none

end Protocol

end GameVault
