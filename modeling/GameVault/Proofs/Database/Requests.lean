import Mathlib
import GameVault.Proofs.Database.Collection
import GameVault.Database.World

namespace GameVault.Database

/-- The world an operation leaves, whether it succeeded or failed. -/
def after {α : Type} (op : Op α) (w : World) : World := (Id.run (op.run.run w)).2

@[simp] theorem run_get (w : World) : (ExceptT.run (get : Op World)).run w = pure (.ok w, w) := rfl

@[simp] theorem run_modify (f : World → World) (w : World) :
    (ExceptT.run (modify f : Op Unit)).run w = pure (.ok (), f w) := rfl

@[simp] theorem run_set (w' w : World) :
    (ExceptT.run (MonadStateOf.set w' : Op PUnit)).run w = pure (.ok ⟨⟩, w') := rfl

@[simp] theorem slots_setCollection (w : World) (slot : Nat) (c : Collection) :
    (w.setCollection slot c).slots = w.slots.set! slot c := rfl

@[simp] theorem slots_modifyConnection (w : World) (i : Nat) (f : Connection → Connection) :
    (w.modifyConnection i f).slots = w.slots := rfl

@[simp] theorem slots_setCatalog (w : World) (key : DatabaseKey) (entries : List (String × Nat)) :
    (w.setCatalog key entries).slots = w.slots := by
  unfold World.setCatalog
  split_ifs <;> rfl

@[simp] theorem collection_modifyConnection (w : World) (i : Nat) (f : Connection → Connection) (slot : Nat) :
    (w.modifyConnection i f).collection slot = w.collection slot := rfl

namespace World

/-- Every stored collection keeps the representation invariant. -/
def Valid (w : World) : Prop := ∀ c ∈ w.slots, c.Valid

theorem valid_empty : ({} : World).Valid := by simp [Valid]

theorem Valid.collection {w : World} (valid : w.Valid) (slot : Nat) : (w.collection slot).Valid := by
  unfold World.collection
  rw [Array.getD_eq_getD_getElem?]
  rcases found : w.slots[slot]? with _ | c
  · exact Collection.valid_empty
  · exact valid c (Array.mem_of_getElem? found)

@[simp] theorem valid_modifyConnection {w : World} {i : Nat} {f : Connection → Connection} :
    (w.modifyConnection i f).Valid ↔ w.Valid := Iff.rfl

theorem Valid.set {w : World} (valid : w.Valid) {slot : Nat} {c : Collection} (stored : c.Valid) :
    ∀ c' ∈ w.slots.setIfInBounds slot c, c'.Valid := by
  intro c' member
  rcases Array.mem_or_eq_of_mem_setIfInBounds member with old | rfl
  · exact valid c' old
  · exact stored

end World

namespace World

theorem Valid.insertOne {w : World} (valid : w.Valid) (h : Handle) (doc : Value) :
    (after (h.insertOne doc) w).Valid := by
  by_cases closed : (w.connection h.connection).closed
  · simpa [after, Handle.insertOne, ensureOpen, closed] using valid
  rcases inserted : (w.collection h.slot).insert h.name doc with e | ⟨c, id, bytes⟩
  · simpa [after, Handle.insertOne, ensureOpen, Handle.current, Database.count, closed, inserted, ExceptT.run_bind] using valid
  · simp only [World.Valid]
    simp [after, Handle.insertOne, ensureOpen, Handle.current, Handle.store, Database.count, closed, inserted, ExceptT.run_bind]
    exact valid.set (Collection.valid_insert (valid.collection h.slot) inserted)

theorem Valid.insertMany {w : World} (valid : w.Valid) (h : Handle) (docs : List Value) (ordered : Bool) :
    (after (h.insertMany docs ordered) w).Valid := by
  by_cases closed : (w.connection h.connection).closed
  · simpa [after, Handle.insertMany, ensureOpen, closed] using valid
  · simp only [World.Valid]
    simp [after, Handle.insertMany, ensureOpen, Handle.current, Handle.store, Database.count, closed, ExceptT.run_bind]
    exact valid.set (Collection.valid_insertMany docs (valid.collection h.slot))

theorem Valid.replaceOne {w : World} (valid : w.Valid) (h : Handle) (f : Filter) (doc : Value) (upsert : Bool) :
    (after (h.replaceOne f doc upsert) w).Valid := by
  by_cases closed : (w.connection h.connection).closed
  · simpa [after, Handle.replaceOne, ensureOpen, closed] using valid
  rcases replaced : (w.collection h.slot).replaceOne h.name f doc upsert with e | ⟨c, r, bytes⟩
  · simpa [after, Handle.replaceOne, ensureOpen, Handle.current, Database.count, closed, replaced, ExceptT.run_bind] using valid
  · simp only [World.Valid]
    simp [after, Handle.replaceOne, ensureOpen, Handle.current, Handle.store, Database.count, closed, replaced, ExceptT.run_bind]
    split_ifs <;> simpa using valid.set (Collection.valid_replaceOne (valid.collection h.slot) replaced)

theorem Valid.deleteOne {w : World} (valid : w.Valid) (h : Handle) (f : Filter) :
    (after (h.deleteOne f) w).Valid := by
  by_cases closed : (w.connection h.connection).closed
  · simpa [after, Handle.deleteOne, ensureOpen, closed] using valid
  · simp only [World.Valid]
    simp [after, Handle.deleteOne, ensureOpen, Handle.current, Handle.store, Database.count, closed, ExceptT.run_bind]
    exact valid.set (Collection.valid_deleteOne (valid.collection h.slot) f)

theorem Valid.deleteMany {w : World} (valid : w.Valid) (h : Handle) (f : Filter) :
    (after (h.deleteMany f) w).Valid := by
  by_cases closed : (w.connection h.connection).closed
  · simpa [after, Handle.deleteMany, ensureOpen, closed] using valid
  · simp only [World.Valid]
    simp [after, Handle.deleteMany, ensureOpen, Handle.current, Handle.store, Database.count, closed, ExceptT.run_bind]
    exact valid.set (Collection.valid_deleteMany (valid.collection h.slot) f)

theorem Valid.createIndex {w : World} (valid : w.Valid) (h : Handle) (m : IndexModel) :
    (after (h.createIndex m) w).Valid := by
  by_cases closed : (w.connection h.connection).closed
  · simpa [after, Handle.createIndex, ensureOpen, closed] using valid
  rcases created : (w.collection h.slot).createIndex m with e | ⟨c, name⟩
  · simpa [after, Handle.createIndex, ensureOpen, Handle.current, Database.count, closed, created, ExceptT.run_bind] using valid
  · simp only [World.Valid]
    simp [after, Handle.createIndex, ensureOpen, Handle.current, Handle.store, Database.count, closed, created, ExceptT.run_bind]
    exact valid.set (Collection.valid_createIndex (valid.collection h.slot) created)

theorem Valid.dropIndex {w : World} (valid : w.Valid) (h : Handle) (name : String) :
    (after (h.dropIndex name) w).Valid := by
  by_cases closed : (w.connection h.connection).closed
  · simpa [after, Handle.dropIndex, ensureOpen, closed] using valid
  rcases dropped : (w.collection h.slot).dropIndex name with e | c
  · simpa [after, Handle.dropIndex, ensureOpen, Handle.current, Database.count, closed, dropped, ExceptT.run_bind] using valid
  · simp only [World.Valid]
    simp [after, Handle.dropIndex, ensureOpen, Handle.current, Handle.store, Database.count, closed, dropped, ExceptT.run_bind]
    exact valid.set (Collection.valid_dropIndex (valid.collection h.slot) dropped)

theorem Valid.find {w : World} (valid : w.Valid) (h : Handle) (f : Filter) (o : FindOptions) :
    (after (h.find f o) w).Valid := by
  by_cases closed : (w.connection h.connection).closed
  · simpa [after, Handle.find, ensureOpen, closed] using valid
  · simp only [World.Valid]
    simp [after, Handle.find, ensureOpen, Handle.current, Database.count, closed, ExceptT.run_bind]
    split <;> exact valid

theorem Valid.count {w : World} (valid : w.Valid) (h : Handle) (f : Filter) :
    (after (h.count f) w).Valid := by
  by_cases closed : (w.connection h.connection).closed
  · simpa [after, Handle.count, ensureOpen, closed] using valid
  · simpa [World.Valid, after, Handle.count, ensureOpen, Handle.current, Database.count, closed, ExceptT.run_bind] using valid

theorem Valid.listIndexes {w : World} (valid : w.Valid) (h : Handle) :
    (after h.listIndexes w).Valid := by
  by_cases closed : (w.connection h.connection).closed
  · simpa [after, Handle.listIndexes, ensureOpen, closed] using valid
  · simpa [World.Valid, after, Handle.listIndexes, ensureOpen, Handle.current, Database.count, closed, ExceptT.run_bind] using valid

theorem Valid.openCollection {w : World} (valid : w.Valid) (conn : Nat) (name : String) :
    (after (Database.openCollection conn name) w).Valid := by
  by_cases closed : (w.connection conn).closed
  · simpa [after, Database.openCollection, ensureOpen, closed] using valid
  by_cases invalid : invalidCollectionName name
  · simpa [after, Database.openCollection, ensureOpen, closed, invalid] using valid
  simp only [World.Valid]
  simp [after, Database.openCollection, ensureOpen, closed, invalid, ExceptT.run_bind]
  split
  · exact valid
  · simp
    intro c member
    rcases member with old | rfl
    · exact valid c old
    · exact Collection.valid_empty

theorem Valid.listCollections {w : World} (valid : w.Valid) (conn : Nat) :
    (after (Database.listCollections conn) w).Valid := by
  by_cases closed : (w.connection conn).closed
  · simpa [after, Database.listCollections, ensureOpen, closed] using valid
  · simpa [after, Database.listCollections, ensureOpen, closed, ExceptT.run_bind] using valid

theorem Valid.dropCollection {w : World} (valid : w.Valid) (conn : Nat) (name : String) :
    (after (Database.dropCollection conn name) w).Valid := by
  by_cases closed : (w.connection conn).closed
  · simpa [after, Database.dropCollection, ensureOpen, closed] using valid
  simp only [World.Valid]
  simp [after, Database.dropCollection, ensureOpen, closed, ExceptT.run_bind]
  split_ifs
  · simp
    exact valid
  · exact valid

theorem Valid.close {w : World} (valid : w.Valid) (conn : Nat) : (after (Database.close conn) w).Valid := by
  simpa [after, Database.close] using valid

theorem Valid.newServer {w : World} (valid : w.Valid) : w.newServer.2.Valid := valid

theorem Valid.connect {w w' : World} (valid : w.Valid) {server conn : Nat} {cs database : String}
    (connected : w.connect server cs database = .ok (conn, w')) : w'.Valid := by
  obtain ⟨address, -, rest⟩ := except_bind_eq_ok.mp connected
  obtain ⟨-, -, rest⟩ := except_bind_eq_ok.mp rest
  simp only [pure, Except.pure, Except.ok.injEq, Prod.mk.injEq] at rest
  obtain ⟨-, rfl⟩ := rest
  split_ifs <;> simpa [World.Valid] using valid

end World

theorem connection_modifyConnection (w : World) (i j : Nat) (f : Connection → Connection) :
    (w.modifyConnection i f).connection j =
      if i = j ∧ i < w.connections.size then f (w.connection j) else w.connection j := by
  unfold World.connection World.modifyConnection
  simp only [Array.getD_eq_getD_getElem?, Array.getElem?_modify]
  by_cases same : i = j
  · subst same
    by_cases inside : i < w.connections.size
    · simp [inside]
    · simp [inside]
  · simp [same]

@[simp] theorem connection_setCollection (w : World) (slot j : Nat) (c : Collection) :
    (w.setCollection slot c).connection j = w.connection j := rfl

theorem run_openCollection {w : World} {conn : Nat} {name : String}
    (opened : (w.connection conn).closed = false) (allowed : invalidCollectionName name = false) :
    ∃ slot w', (openCollection conn name).run.run w = (.ok ⟨conn, slot, name⟩, w') ∧
      w'.connections = w.connections ∧ w'.clock = w.clock ∧ (w.Valid → w'.Valid) := by
  have valid := fun v => World.Valid.openCollection (w := w) v conn name
  simp only [after] at valid
  simp [openCollection, ensureOpen, opened, allowed, ExceptT.run_bind] at valid ⊢
  rcases found : List.lookup name (w.catalog (w.connection conn).database) with _ | slot
  · simp only [found] at valid
    refine ⟨w.slots.size, _, rfl, ?_, ?_, fun v => valid v⟩
    · unfold World.setCatalog
      split_ifs <;> rfl
    · unfold World.setCatalog
      split_ifs <;> rfl
  · exact ⟨slot, w, rfl, rfl, rfl, id⟩

theorem run_replaceOne {w : World} {h : Handle} {f : Filter} {doc : Value} {upsert : Bool} {c : Collection}
    {r : ReplaceOutcome} {bytes : Nat} (opened : (w.connection h.connection).closed = false)
    (replaced : (w.collection h.slot).replaceOne h.name f doc upsert = .ok (c, r, bytes)) :
    (h.replaceOne f doc upsert).run.run w =
      (.ok (if (w.connection h.connection).acknowledged then r else {}),
        (w.setCollection h.slot c).modifyConnection h.connection
          fun conn => { conn with counters := conn.counters.write bytes }) := by
  have acknowledged : (((w.setCollection h.slot c).modifyConnection h.connection
      fun conn => { conn with counters := conn.counters.write bytes }).connection h.connection).acknowledged =
      (w.connection h.connection).acknowledged := by
    rw [connection_modifyConnection]
    split_ifs <;> rfl
  simp [Handle.replaceOne, ensureOpen, opened, Handle.current, Handle.store, Database.count, replaced,
    ExceptT.run_bind, acknowledged]
  split_ifs <;> rfl

theorem connection_lt_of_acknowledged {w : World} {i : Nat} (acknowledged : (w.connection i).acknowledged = true) :
    i < w.connections.size := by
  by_contra outside
  unfold World.connection at acknowledged
  rw [Array.getD_eq_getD_getElem?, Array.getElem?_eq_none (Nat.le_of_not_lt outside)] at acknowledged
  cases acknowledged

theorem connection_after_write {w : World} {i slot : Nat} {c : Collection} {bytes : Nat}
    (acknowledged : (w.connection i).acknowledged = true) :
    ((w.setCollection slot c).modifyConnection i fun conn => { conn with counters := conn.counters.write bytes }).connection i =
      { w.connection i with counters := (w.connection i).counters.write bytes } := by
  rw [connection_modifyConnection, if_pos ⟨rfl, connection_lt_of_acknowledged acknowledged⟩]
  rfl

/-- A request a client makes of the servers. -/
inductive Request where
  | newServer
  | connect (server : Nat) (connectionString database : String)
  | openCollection (conn : Nat) (name : String)
  | listCollections (conn : Nat)
  | dropCollection (conn : Nat) (name : String)
  | close (conn : Nat)
  | find (h : Handle) (f : Filter) (o : FindOptions)
  | count (h : Handle) (f : Filter)
  | insertOne (h : Handle) (doc : Value)
  | insertMany (h : Handle) (docs : List Value) (ordered : Bool)
  | replaceOne (h : Handle) (f : Filter) (doc : Value) (upsert : Bool)
  | deleteOne (h : Handle) (f : Filter)
  | deleteMany (h : Handle) (f : Filter)
  | listIndexes (h : Handle)
  | createIndex (h : Handle) (m : IndexModel)
  | dropIndex (h : Handle) (name : String)

namespace Request

/-- The world a request leaves, whether it succeeded or failed. -/
def apply : Request → World → World
  | newServer, w => w.newServer.2
  | connect server cs database, w =>
    match w.connect server cs database with
    | .ok (_, w') => w'
    | .error _ => w
  | openCollection conn name, w => after (Database.openCollection conn name) w
  | listCollections conn, w => after (Database.listCollections conn) w
  | dropCollection conn name, w => after (Database.dropCollection conn name) w
  | close conn, w => after (Database.close conn) w
  | find h f o, w => after (h.find f o) w
  | count h f, w => after (h.count f) w
  | insertOne h doc, w => after (h.insertOne doc) w
  | insertMany h docs ordered, w => after (h.insertMany docs ordered) w
  | replaceOne h f doc upsert, w => after (h.replaceOne f doc upsert) w
  | deleteOne h f, w => after (h.deleteOne f) w
  | deleteMany h f, w => after (h.deleteMany f) w
  | listIndexes h, w => after h.listIndexes w
  | createIndex h m, w => after (h.createIndex m) w
  | dropIndex h name, w => after (h.dropIndex name) w

/-- The world a run of requests leaves. -/
def run (requests : List Request) (w : World) : World := requests.foldl (fun w r => r.apply w) w

theorem valid_apply {w : World} (valid : w.Valid) : ∀ r : Request, (r.apply w).Valid
  | newServer => valid.newServer
  | connect server cs database => by
    show (match w.connect server cs database with | .ok (_, w') => w' | .error _ => w).Valid
    rcases connected : w.connect server cs database with e | ⟨conn, w'⟩
    · exact valid
    · exact valid.connect connected
  | openCollection conn name => valid.openCollection conn name
  | listCollections conn => valid.listCollections conn
  | dropCollection conn name => valid.dropCollection conn name
  | close conn => valid.close conn
  | find h f o => valid.find h f o
  | count h f => valid.count h f
  | insertOne h doc => valid.insertOne h doc
  | insertMany h docs ordered => valid.insertMany h docs ordered
  | replaceOne h f doc upsert => valid.replaceOne h f doc upsert
  | deleteOne h f => valid.deleteOne h f
  | deleteMany h f => valid.deleteMany h f
  | listIndexes h => valid.listIndexes h
  | createIndex h m => valid.createIndex h m
  | dropIndex h name => valid.dropIndex h name

theorem valid_run (requests : List Request) : ∀ {w : World}, w.Valid → (run requests w).Valid := by
  induction requests with
  | nil => intro w valid; exact valid
  | cons r rest ih => intro w valid; exact ih (valid_apply valid r)

end Request

/-- In every world the servers reach from none, by any requests from any handles, succeeding or
failing, every collection holds only maps stored under their own integer `id`, each with a
canonical encoding, so no two share an id; a replacement there keeps every stored id and stores
only documents under their own id; and no two of its indexes share a name. -/
theorem reachable_collection_invariant (requests : List Request) (slot : Nat) :
    let c := (Request.run requests {}).collection slot
    (∀ p ∈ c.documents, (∃ entries, p.2 = .map entries) ∧ p.2.get? idField = some (.int p.1) ∧
        ∃ bytes, Cbor.encode p.2 = .ok bytes) ∧
      (∀ p ∈ c.documents, ∀ q ∈ c.documents, p.2.get? idField = q.2.get? idField → p = q) ∧
      (∀ name f replacement upsert c' out bytes,
        c.replaceOne name f replacement upsert = .ok (c', out, bytes) →
          c.documents.map (·.1) ⊆ c'.documents.map (·.1) ∧
            ∀ p ∈ c'.documents, p.2.get? idField = some (.int p.1)) ∧
      (c.indexes.map (·.name)).Nodup := by
  intro c
  have valid : c.Valid := (Request.valid_run requests World.valid_empty).collection slot
  refine ⟨fun p member => ?_, fun p first q second same => valid.id_unique first second same, ?_,
    valid.indexNames⟩
  · obtain ⟨isMap, id, encodable⟩ := valid.stored p member
    exact ⟨isMap, id, _, Cbor.encode_of_encodable encodable⟩
  · intro name f replacement upsert c' out bytes replaced
    exact ⟨Collection.replaceOne_keeps_ids replaced,
      fun p member => ((Collection.valid_replaceOne valid replaced).stored p member).id⟩

end GameVault.Database
