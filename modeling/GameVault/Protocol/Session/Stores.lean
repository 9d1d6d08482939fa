import GameVault.Protocol.Session.Vars
import GameVault.Stress.Run

namespace GameVault

namespace Protocol

open Outcome Database

/-- Reads a store configuration: a connection string replaces the default one and its database
(which is `game` unless a text names another); then upsert, ordering and page size are applied. -/
def configOf (m : Message) : Outcome StoreConfig := do
  let base : StoreConfig ← match ← opt m "cs" label with
    | some cs =>
      let db := match m.get? "db" with
        | some (.str db) => db
        | _ => "game"
      pure { connectionString := cs, database := db }
    | none => match ← opt m "db" label with
      | some db => pure { database := db }
      | none => pure {}
  let upsert ← optD m "upsert" bool base.upsert
  let ordered ← optD m "ordered" bool base.ordered
  let pageSize ← optD m "page_size" u64 base.defaultPageSize
  pure { base with upsert, ordered, defaultPageSize := pageSize }

def config (_what : String) (m : Message) : Outcome StoreConfig := configOf m

/-- The store number of a step. -/
def stepStore (r : Message) : Step Nat := do
  let i ← reading (optD r "store" u64 0)
  let _ ← slotAt i
  pure i

/-- The entity of a variable, which must be of a kind. -/
def entityOfKind (name : String) (k : Kind) : Step Entity := do
  let e ← entityIn name
  if e.kind = k then pure e else refuse ("variable " ++ quoted name ++ " is not a " ++ k.name)

/-- An error record with more fields. -/
def withFields (f : Failure) (more : List (String × Message)) : Message :=
  match f.toMessage with
  | .obj fields => .obj (fields ++ more)
  | m => m

/-- Keeps found entities under `as.0`, `as.1`, … when the step names `as`. -/
def keepAll (r : Message) (es : List Entity) : Step Unit := do
  if let some name := textIfAny r "as" then
    for (e, i) in es.zip (List.range es.length) do
      setVariable (name ++ "." ++ toString i) e

/-- Keeps a found entity under `as` when the step names it. -/
def keepOne (r : Message) (e : Option Entity) : Step Unit := do
  if let some name := textIfAny r "as" then
    if let some e := e then setVariable name e

/-- Opens a store over a new connection of a server. -/
def connectStore (server : Nat) (c : StoreConfig) : Step (Except DriverError Nat) := do
  let s ← get
  match s.world.connect server c.connectionString c.database with
  | .error e => pure (.error e)
  | .ok (conn, world) =>
    set { s with world }
    pure (.ok conn)

/-- The report of a store's counters. -/
def storeStatsMessage (slot : StoreSlot) (w : World) : Message :=
  let st := slot.store.stats
  let conn := w.connection slot.store.connection
  .obj ([("loads", .nat st.loads), ("writes", .nat st.writes),
    ("skipped_updates", .nat st.skippedUpdates), ("soft_deletes", .nat st.softDeletes),
    ("hard_deletes", .nat st.hardDeletes), ("batch_failures", .nat st.batchFailures),
    ("registered", listOf .str slot.store.registered), ("closed", .bool conn.closed),
    ("driver", if slot.countersShown then countersMessage conn.counters else .null)] ++
    if slot.testServer.isSome then [("test_writes", .nat conn.counters.writes)] else [])

/-- The roles of a populated fixture: ids one to `count`, named `role-<id>`, at level `id`. -/
def populatedRoles (count : Nat) : List Entity :=
  (List.range count).map fun i =>
    let id := i + 1
    let e := Entity.namedRole (Int64.ofNat id) ("role-" ++ toString id)
    { e with body := .role ("role-" ++ toString id) id.toUInt32 0 }

/-- Runs an entity write on a store and keeps the entity it leaves in the variable. -/
def entityWrite {α : Type} (i : Nat) (name : String) (e : Entity) (op : Entity → StoreOp (α × Entity))
    (answer : α → List (String × Message)) : Step Message := do
  match ← onStore i (op e) with
  | .ok (a, e') =>
    setVariable name e'
    pure (.obj (answer a ++ [("state", shown e')]))
  | .error err => pure (withFields (.store err) [("state", shown e)])

/-- The name of an update's outcome. -/
def outcomeName : UpdateOutcome → String
  | .unchanged => "Unchanged"
  | .saved => "Saved"
  | .unacknowledged => "Unacknowledged"

/-- Runs a store step, if `op` names one. -/
def storeStep (op : String) (r : Message) : Option (Step Message) :=
  match op with
  | "open_store" => some do
    let c ← reading (optD r "config" config {})
    let via ← reading (optD r "via_connector" bool false)
    match ← connectStore (← get).server c with
    | .error e => throw (if via then .store (.driver e) else .driver e)
    | .ok conn =>
      let i ← addStore { store := { connection := conn, config := c }, countersShown := !via }
      pure (.obj [("store", .nat i)])
  | "open_test_store" => some do
    let c ← reading (optD r "config" config {})
    let s ← get
    let (server, world) := s.world.newServer
    set { s with world }
    match ← connectStore server c with
    | .error e => throw (.panic ("Failed to connect to in-memory server: " ++ e.diagnostic))
    | .ok conn =>
      let i ← addStore
        { store := { connection := conn, config := c }, countersShown := true, testServer := some server }
      pure (.obj [("store", .nat i)])
  | "populated_roles" => some do
    let count ← stepI64 r "count"
    let s ← get
    let (server, world) := s.world.newServer
    set { s with world }
    match ← connectStore server {} with
    | .error e => throw (.panic ("Failed to connect to in-memory server: " ++ e.diagnostic))
    | .ok conn =>
      let store : Store := { connection := conn, config := {} }
      let s ← get
      let roles := populatedRoles count.toInt.toNat
      let ((_, r), (store, world)) := (Store.addBatch .role roles).run (store, s.world)
      set { s with world }
      match r with
      | .ok () =>
        let i ← addStore { store, countersShown := true, testServer := some server }
        pure (.obj [("store", .nat i)])
      | .error e => throw (.panic ("Failed to populate roles: " ++ e.diagnostic))
  | "test_reopen" => some do
    let i ← stepStore r
    let slot ← slotAt i
    match slot.testServer with
    | none => refuse "not a test store"
    | some server =>
      match ← connectStore server slot.store.config with
      | .error e => throw (.panic ("Failed to reconnect to in-memory server: " ++ e.diagnostic))
      | .ok conn =>
        let j ← addStore { store := { connection := conn, config := slot.store.config }, countersShown := false }
        pure (.obj [("store", .nat j)])
  | "store_config" => some do
    let slot ← slotAt (← stepStore r)
    let c := slot.store.config
    pure (.obj [("connection_string", .str c.connectionString), ("database", .str c.database),
      ("upsert", .bool c.upsert), ("ordered", .bool c.ordered),
      ("default_page_size", .nat c.defaultPageSize),
      ("driver_database", .str ((← get).world.connection slot.store.connection).database.name)])
  | "closed_probe" => some do
    let k ← reading (req r "kind" kind)
    let i ← stepStore r
    match ← onStore i (Store.count k .all) with
    | .ok n => pure (.obj [("count", .nat n)])
    | .error e => pure (.obj [("is_closed", .bool e.isClosed), ("error", .str ("Core." ++ e.kind))])
  | "store_create_index_name" => some do
    let k ← reading (req r "kind" kind)
    let i ← stepStore r
    let f ← reading (req r "field" text)
    let asc ← reading (req r "ascending" bool)
    pure (.str (← runStore i (Store.createIndex k f asc)).name)
  | "store_stats" => some do
    let slot ← slotAt (← stepStore r)
    pure (storeStatsMessage slot (← get).world)
  | "store_close" => some do
    let i ← stepStore r
    runStore i Store.close
    pure (.obj [("closed", .bool (← runStore i Store.isClosed))])
  | "store_close_driver" => some do
    let slot ← slotAt (← stepStore r)
    unless slot.holdsConnection do refuse "store has no driver handle"
    runDatabase (close slot.store.connection)
    pure (.obj [("closed", .bool true)])
  | "load" => some do
    let k ← reading (req r "kind" kind)
    let id ← stepI64 r "id"
    let default ← match r.get? "default", r.get? "default_var" with
      | some doc, _ => do
        let v ← reading (valueOf doc)
        pure (some (← reading (ofCodec (Entity.ofDocument k v))))
      | none, some name => do
        let name ← reading (label "default_var" name)
        pure (some (← entityOfKind name k))
      | none, none => pure none
    let i ← stepStore r
    let e ← runStore i (Store.load k id default)
    keepOne r (some e)
    pure (shown e)
  | "add" => some do
    let name ← reading (req r "var" text)
    let e ← entityIn name
    entityWrite (← stepStore r) name e Store.add fun n => [("written", .nat n)]
  | "update" => some do
    let name ← reading (req r "var" text)
    let e ← entityIn name
    entityWrite (← stepStore r) name e Store.update fun o => [("outcome", .str (outcomeName o))]
  | "delete" => some do
    let name ← reading (req r "var" text)
    let e ← entityIn name
    entityWrite (← stepStore r) name e Store.delete fun n => [("written", .nat n)]
  | "add_batch" => some do
    let names ← reading (req r "vars" list)
    let names ← names.mapM fun m => reading (text "vars" m)
    let entities ← names.mapM entityIn
    let i ← stepStore r
    let k ← match entities with
      | e :: rest =>
        if rest.all (·.kind = e.kind) then pure e.kind else refuse "add_batch vars must share a kind"
      | [] => reading (req r "kind" kind)
    let slot ← slotAt i
    let s ← get
    let ((es, result), (store, world)) := (Store.addBatch k entities).run (slot.store, s.world)
    set { s with world, stores := s.stores.set i { slot with store } }
    for (name, e) in names.zip es do setVariable name e
    let states := listOf shown es
    match result with
    | .ok () => pure (.obj [("ok", .bool true), ("states", states)])
    | .error e => pure (withFields (.store e) [("states", states)])
  | "delete_where" => some do
    let k ← reading (req r "kind" kind)
    let i ← stepStore r
    let f ← reading (filterOr r)
    pure (.nat (← runStore i (Store.deleteWhere k f)))
  | "store_count" => some do
    let k ← reading (req r "kind" kind)
    let i ← stepStore r
    let f ← reading (filterOr r)
    pure (.nat (← runStore i (Store.count k f)))
  | "exists" => some do
    let k ← reading (req r "kind" kind)
    let i ← stepStore r
    let f ← reading (filterOr r)
    pure (.bool (← runStore i (Store.present k f)))
  | "count_including_deleted" => some do
    let k ← reading (req r "kind" kind)
    let i ← stepStore r
    let f ← reading (filterOr r)
    pure (.nat (← runStore i (Store.countIncludingDeleted k f)))
  | "hard_delete_one" => some do
    let k ← reading (req r "kind" kind)
    let i ← stepStore r
    let f ← reading (filterOr r)
    pure (.nat (← runStore i (Store.hardDeleteOne k f)))
  | "hard_delete_many" => some do
    let k ← reading (req r "kind" kind)
    let i ← stepStore r
    let f ← reading (filterOr r)
    pure (.nat (← runStore i (Store.hardDeleteMany k f)))
  | "find_one" => some do
    let k ← reading (req r "kind" kind)
    let i ← stepStore r
    let f ← reading (filterOr r)
    let e ← runStore i (Store.findOne k f)
    keepOne r e
    pure (optionOf shown e)
  | "find_sorted_first" => some do
    let k ← reading (req r "kind" kind)
    let i ← stepStore r
    let f ← reading (filterOr r)
    let key ← reading (req r "key" text)
    let asc ← reading (req r "ascending" bool)
    let e ← runStore i (Store.findSortedFirst k f key asc)
    keepOne r e
    pure (optionOf shown e)
  | "find_many" => some do
    let k ← reading (req r "kind" kind)
    let i ← stepStore r
    let f ← reading (filterOr r)
    let es ← runStore i (Store.findMany k f)
    keepAll r es
    pure (listOf shown es)
  | "find_including_deleted" => some do
    let k ← reading (req r "kind" kind)
    let i ← stepStore r
    let f ← reading (filterOr r)
    let es ← runStore i (Store.findIncludingDeleted k f)
    keepAll r es
    pure (listOf shown es)
  | "find_sorted_page" => some do
    let k ← reading (req r "kind" kind)
    let i ← stepStore r
    let f ← reading (filterOr r)
    let key ← reading (req r "key" text)
    let asc ← reading (req r "ascending" bool)
    let index ← reading (req r "page_index" i64)
    let size ← reading (req r "page_size" i64)
    let es ← runStore i (Store.findSortedPage k f key asc index size)
    keepAll r es
    pure (listOf shown es)
  | "store_create_index" => some do
    let k ← reading (req r "kind" kind)
    let i ← stepStore r
    let f ← reading (req r "field" text)
    let asc ← reading (req r "ascending" bool)
    match ← runStore i (Store.createIndex k f asc) with
    | .created n => pure (.obj [("created", .str n)])
    | .alreadyExists n => pure (.obj [("already_exists", .str n)])
  | "store_drop_index" => some do
    let k ← reading (req r "kind" kind)
    let i ← stepStore r
    let name ← reading (req r "name" text)
    runStore i (Store.dropIndex k name)
    pure (.str "ok")
  | "store_list_indexes" => some do
    let k ← reading (req r "kind" kind)
    let i ← stepStore r
    pure (listOf indexInfoMessage (← runStore i (Store.listIndexes k)))
  | "stress" => some do
    let actors ← reading (optD r "actors" u64 8)
    let ticks ← reading (optD r "ticks" u64 200)
    let every ← reading (optD r "mutate_every" u64 4)
    if actors * ticks > 20000 then refuse "stress run too large"
    let c ← reading (optD r "config" config {})
    match ← connectStore (← get).server c with
    | .error e => throw (.driver e)
    | .ok conn =>
      let closed ← reading (optD r "closed" bool false)
      let s ← get
      let world := if closed then s.world.modifyConnection conn fun x => { x with closed := true }
        else s.world
      let plan : StressConfig := { actors, ticks, mutateEvery := every }
      let (t, (store, world)) := (Stress.run plan).run ({ connection := conn, config := c }, world)
      set { s with world }
      pure (.obj [("total_ops", .nat (t.saved + t.skipped + t.failed)), ("saved_ops", .nat t.saved),
        ("skipped_ops", .nat t.skipped), ("failed_ops", .nat t.failed),
        ("expected_saves_per_actor", .nat plan.expectedSavesPerActor),
        ("store_writes", .nat store.stats.writes), ("skipped_updates", .nat store.stats.skippedUpdates),
        ("driver", countersMessage (world.connection conn).counters)])
  | _ => none

end Protocol

end GameVault
