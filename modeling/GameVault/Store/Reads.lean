import GameVault.Store.Basic

namespace GameVault

open Database

namespace Store

/-- An entity of a kind read from a stored document, with the document's fingerprint as baseline. -/
def hydrate (k : Kind) (doc : Value) : Except CodecError Entity := do
  let fingerprint ← Fingerprint.of doc
  let e ← Entity.ofDocument k doc
  pure (e.attach (some fingerprint))

/-- The entities of a kind that a filter selects, with find options. -/
def findEntities (k : Kind) (f : Filter) (o : FindOptions) : StoreOp (List Entity) := do
  let h ← collection k
  let docs ← database (h.find f o)
  let entities ← codec (docs.mapM (hydrate k))
  tally fun s => { s with loads := s.loads + entities.length }
  pure entities

/-- Loads the entity of a kind under an id; when none is stored, `default` (or a fresh entity)
takes the id and is new. Runs the load hook and counts one load. -/
def load (k : Kind) (id : Int64) (default : Option Entity) : StoreOp Entity := do
  let h ← collection k
  let found ← database (h.find (Filter.byId id) { limit := some 1 })
  let (e, isNew) ← match found with
    | doc :: _ => do pure (← codec (hydrate k doc), false)
    | [] =>
      let e := default.getD (Entity.fresh k id)
      pure ({ e with audit := { e.audit with id, baseline := none } }, true)
  tally fun s => { s with loads := s.loads + 1 }
  pure (e.afterLoad isNew)

def findOne (k : Kind) (f : Filter) : StoreOp (Option Entity) := do
  pure (← findEntities k f.active { limit := some 1 }).head?

def findMany (k : Kind) (f : Filter) : StoreOp (List Entity) :=
  findEntities k f.active {}

/-- The first live entity in the order of one field. -/
def findSortedFirst (k : Kind) (f : Filter) (key : String) (ascending : Bool) :
    StoreOp (Option Entity) := do
  pure (← findEntities k f.active (FindOptions.sortedFirst key ascending)).head?

/-- One page of live entities in the order of one field; the page request is clamped, a size that
is not positive taking the configured default. -/
def findSortedPage (k : Kind) (f : Filter) (key : String) (ascending : Bool) (index size : Int) :
    StoreOp (List Entity) := do
  let page := Page.clamped index size (← get).1.config.defaultPageSize
  findEntities k f.active (FindOptions.sortedPage key ascending page)

/-- The number of live entities a filter selects. -/
def count (k : Kind) (f : Filter) : StoreOp Nat := do
  let h ← collection k
  database (h.count f.active)

/-- Whether some live entity is selected. -/
def present (k : Kind) (f : Filter) : StoreOp Bool := do
  let h ← collection k
  pure !(← database (h.find f.active { limit := some 1 })).isEmpty

/-- Every entity a filter selects, deleted ones included. -/
def findIncludingDeleted (k : Kind) (f : Filter) : StoreOp (List Entity) :=
  findEntities k f {}

/-- The number of entities a filter selects, deleted ones included. -/
def countIncludingDeleted (k : Kind) (f : Filter) : StoreOp Nat := do
  let h ← collection k
  database (h.count f)

end Store

end GameVault
