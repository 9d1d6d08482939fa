import GameVault.Protocol.Entities
import GameVault.Store.Writes

namespace GameVault

namespace Protocol

open Outcome Database

/-- A store of a session and how its database counters are reported. -/
structure StoreSlot where
  store : Store
  /-- Whether the store's connection counters are shown with its own. -/
  countersShown : Bool
  /-- For a store made by the test fixture: the private server it opened. -/
  testServer : Option Nat := none
  deriving Inhabited

/-- Whether the session holds the store's connection apart from the store: only a store opened on
the session's server with its counters shown, so the connection can be closed behind its back. -/
def StoreSlot.holdsConnection (slot : StoreSlot) : Bool :=
  slot.countersShown && slot.testServer.isNone

/-- The state of a session. -/
structure Session where
  world : World
  /-- The session's own server. -/
  server : Nat
  connections : List Nat := []
  handles : List (String × Handle) := []
  stores : List StoreSlot := []
  vars : List (String × Entity) := []
  deriving Inhabited

/-- A fresh session with its server. -/
def Session.start : Session :=
  let (server, world) := ({} : World).newServer
  { world, server }

/-- A step of a session: it may fail, and keeps what it changed before failing. -/
abbrev Step := ExceptT Failure (StateM Session)

/-- Puts a value under a name, replacing an earlier one. -/
def bind {α : Type} (name : String) (a : α) (xs : List (String × α)) : List (String × α) :=
  if xs.any (·.1 = name) then xs.map fun (n, b) => if n = name then (n, a) else (n, b)
  else xs ++ [(name, a)]

def refuse {α : Type} (message : String) : Step α := throw (.badInput message)

/-- Lifts a request reading into a step. -/
def reading {α : Type} (r : Outcome α) : Step α :=
  match r with
  | .ok a => pure a
  | .error f => throw f

/-- Runs a database operation in a step. -/
def runDatabase {α : Type} (op : Op α) : Step α := do
  let s ← get
  let (r, world) := op.run.run s.world
  set { s with world }
  match r with
  | .ok a => pure a
  | .error e => throw (.driver e)

/-- The connection of a raw connection number. -/
def connectionAt (i : Nat) : Step Nat := do
  match (← get).connections[i]? with
  | some c => pure c
  | none => refuse ("no connection " ++ toString i)

/-- The store slot of a store number. -/
def slotAt (i : Nat) : Step StoreSlot := do
  match (← get).stores[i]? with
  | some s => pure s
  | none => refuse ("no store " ++ toString i)

/-- Runs a store operation on a store, answering its result or its error. -/
def onStore {α : Type} (i : Nat) (op : StoreOp α) : Step (Except StoreError α) := do
  let slot ← slotAt i
  let s ← get
  let (r, (store, world)) := op.run.run (slot.store, s.world)
  set { s with world, stores := s.stores.set i { slot with store } }
  pure r

/-- Runs a store operation on a store, failing the step with its error. -/
def runStore {α : Type} (i : Nat) (op : StoreOp α) : Step α := do
  match ← onStore i op with
  | .ok a => pure a
  | .error e => throw (.store e)

/-- The entity in a variable. -/
def entityIn (name : String) : Step Entity := do
  match (← get).vars.lookup name with
  | some e => pure e
  | none => refuse ("no variable " ++ quoted name)

def setVariable (name : String) (e : Entity) : Step Unit :=
  modify fun s => { s with vars := bind name e s.vars }

/-- Adds a store; answers its number. -/
def addStore (slot : StoreSlot) : Step Nat := do
  let s ← get
  set { s with stores := s.stores ++ [slot] }
  pure s.stores.length

/-- Counters of a connection. -/
def countersMessage (c : Counters) : Message :=
  .obj [("reads", .nat c.reads), ("writes", .nat c.writes), ("deletes", .nat c.deletes),
    ("index_operations", .nat c.indexOperations), ("bytes_written", .nat c.bytesWritten)]

/-- An entity as sessions show it, clock stamps hidden. -/
def shown (e : Entity) : Message := stateMessage true e

/-- A document as sessions show it, clock stamps hidden. -/
def shownDocument (v : Value) : Message := documentMessage true v

end Protocol

end GameVault
