import GameVault.Entity.Audit
import GameVault.Schema.Record
import GameVault.Value.Order

namespace GameVault

/-- The kinds of entities. -/
inductive Kind where
  | role
  | bag
  | pet
  /-- Claims the role collection with a record of its own. -/
  | impostor
  /-- Declares no collection name. -/
  | nameless
  deriving DecidableEq, Inhabited

namespace Kind

/-- The name of a kind in requests. -/
def name : Kind → String
  | .role => "role"
  | .bag => "bag"
  | .pet => "pet"
  | .impostor => "impostor"
  | .nameless => "nameless"

/-- The kind of a name. -/
def ofName? : String → Option Kind
  | "role" => some .role
  | "bag" => some .bag
  | "pet" => some .pet
  | "impostor" => some .impostor
  | "nameless" => some .nameless
  | _ => none

/-- The collection a kind is stored in. -/
def collection : Kind → String
  | .role => "RoleState"
  | .bag => "BagState"
  | .pet => "PetState"
  | .impostor => "RoleState"
  | .nameless => ""

/-- The full type name of a kind, as the registry reports it. -/
def typeName : Kind → String
  | .role => "statedb_testkit::states::RoleState"
  | .bag => "statedb_testkit::states::BagState"
  | .pet => "statedb_testkit::states::PetState"
  | .impostor => "oracle::ImpostorState"
  | .nameless => "oracle::NamelessState"

/-- Whether a kind logs its lifecycle hooks. -/
def logsHooks : Kind → Bool
  | .role | .bag | .pet => true
  | .impostor | .nameless => false

/-- The own fields of a kind, in declaration order. -/
def ownFields : Kind → List String
  | .role => ["name", "level", "gold"]
  | .bag => ["items"]
  | .pet => ["owner_id", "species", "level"]
  | .impostor => ["name"]
  | .nameless => []

end Kind

/-- The item a new, empty bag receives on its first load. -/
def starterItem : Int32 := 1001

/-- Fields of an entity beyond its audit record. -/
inductive Body where
  | role (name : String) (level : UInt32) (gold : Int64)
  /-- Item counts by item, one entry per item. -/
  | bag (items : List (Int32 × UInt32))
  | pet (ownerId : Int64) (species : String) (level : UInt32)
  | impostor (name : String)
  | nameless
  deriving Inhabited

namespace Body

/-- The kind of a body. -/
def kind : Body → Kind
  | .role .. => .role
  | .bag _ => .bag
  | .pet .. => .pet
  | .impostor _ => .impostor
  | .nameless => .nameless

/-- The body of a fresh entity of a kind: empty texts, zero numbers, no items. -/
def empty : Kind → Body
  | .role => .role "" 0 0
  | .bag => .bag []
  | .pet => .pet 0 "" 0
  | .impostor => .impostor ""
  | .nameless => .nameless

/-- The own fields as document entries. -/
def fields : Body → List (Value × Value)
  | .role name level gold =>
    [(.text "name", .text name), (.text "level", .int level.toUInt64.toInt64), (.text "gold", .int gold)]
  | .bag items =>
    [(.text "items", Value.ofPairs (items.map fun (k, n) => (.int k.toInt64, .int n.toUInt64.toInt64)))]
  | .pet owner species level =>
    [(.text "owner_id", .int owner), (.text "species", .text species),
      (.text "level", .int level.toUInt64.toInt64)]
  | .impostor name => [(.text "name", .text name)]
  | .nameless => []

end Body

/-- How often the lifecycle hooks ran: loads, whether the last load found nothing stored, saves. -/
structure Hooks where
  loads : Nat := 0
  lastIsNew : Option Bool := none
  saves : Nat := 0
  deriving Inhabited, DecidableEq

/-- An entity: audit record, own fields and hook log. -/
structure Entity where
  audit : Audit
  body : Body
  hooks : Hooks := {}
  deriving Inhabited

namespace Entity

def kind (e : Entity) : Kind := e.body.kind

def id (e : Entity) : Int64 := e.audit.id

def fresh (k : Kind) (id : Int64) : Entity := ⟨{ id }, Body.empty k, {}⟩

def namedRole (id : Int64) (name : String) : Entity := ⟨{ id }, .role name 1 0, {}⟩

def newPet (id owner : Int64) (species : String) : Entity := ⟨{ id }, .pet owner species 1, {}⟩

/-- The document of an entity; fails when the update count does not fit a signed 64-bit integer. -/
def document (e : Entity) : Except CodecError Value := do
  pure (Value.ofPairs ((← e.audit.fields) ++ e.body.fields))

/-- Runs the load hook: a new, empty bag receives the starter item; kinds that log hooks count
the load. -/
def afterLoad (e : Entity) (isNew : Bool) : Entity :=
  let body :=
    match e.body with
    | .bag [] => if isNew then .bag [(starterItem, 1)] else e.body
    | b => b
  let hooks :=
    if e.kind.logsHooks then { e.hooks with loads := e.hooks.loads + 1, lastIsNew := some isNew }
    else e.hooks
  { e with body, hooks }

/-- Runs the save hook: kinds that log hooks count the save. -/
def afterSave (e : Entity) : Entity :=
  if e.kind.logsHooks then { e with hooks := { e.hooks with saves := e.hooks.saves + 1 } } else e

end Entity

namespace Schema

/-- The audit fields, in declaration order. -/
def auditFields : List String :=
  [Audit.idField, Audit.createTimeField, updateTimeField, Audit.deleteTimeField, updateCountField,
    Audit.isDeletedField]

/-- Checks an audit field set aside. -/
def checkAudit (key : String) (v : Value) : Decoded Unit :=
  if key = updateCountField then do let _ ← asideUnsigned64 v
  else if key = Audit.isDeletedField then do let _ ← asideBool v
  else do let _ ← asideSigned64 v

/-- Checks an own field of a kind. -/
def checkOwn (k : Kind) (key : String) (v : Value) : Decoded Unit :=
  match k, key with
  | .bag, _ => do let _ ← counts v
  | .pet, "owner_id" => do let _ ← signed64 v
  | .role, "gold" => do let _ ← signed64 v
  | _, "level" => do let _ ← unsigned32 v
  | _, _ => do let _ ← text v

/-- A field known to be present, or the value it defaults to. -/
def fieldOr (fields : List (String × Value)) (key : String) (d : Value) : Value :=
  (fields.lookup key).getD d

/-- The audit record from the fields set aside. -/
def readAudit (aside : List (String × Value)) : Decoded Audit := do
  let (fields, _) ← walk auditFields checkAudit [] [] (aside.map fun (k, v) => (.text k, v))
  match fields.lookup Audit.idField with
  | none => throw (.missingField Audit.idField)
  | some idValue =>
    pure {
      id := ← asideSigned64 idValue
      createTime := ← asideSigned64 (fieldOr fields Audit.createTimeField (.int 0))
      updateTime := ← asideSigned64 (fieldOr fields updateTimeField (.int 0))
      deleteTime := ← asideSigned64 (fieldOr fields Audit.deleteTimeField (.int 0))
      updateCount := ← asideUnsigned64 (fieldOr fields updateCountField (.int 0))
      isDeleted := ← asideBool (fieldOr fields Audit.isDeletedField (.bool false)) }

/-- The body of a kind from its own fields, all present and checked. -/
def readBody (k : Kind) (fields : List (String × Value)) : Decoded Body :=
  let get (key : String) := fieldOr fields key .null
  match k with
  | .role => do pure (.role (← text (get "name")) (← unsigned32 (get "level")) (← signed64 (get "gold")))
  | .bag => do pure (.bag (← counts (get "items")))
  | .pet => do
    pure (.pet (← signed64 (get "owner_id")) (← text (get "species")) (← unsigned32 (get "level")))
  | .impostor => do pure (.impostor (← text (get "name")))
  | .nameless => pure .nameless

/-- Reads a document as an entity of a kind, with fresh hooks and no baseline. -/
def readEntity (k : Kind) (doc : Value) : Decoded Entity := do
  let entries ← match doc with
    | .map entries => pure entries
    | v => throw (.invalidType (found v) "map")
  let (own, aside) ← walk k.ownFields (checkOwn k) [] [] entries
  match k.ownFields.find? (fun f => !(own.any (·.1 = f))) with
  | some missing => throw (.missingField missing)
  | none => pure ⟨← readAudit aside, ← readBody k own, {}⟩

end Schema

/-- Reads a document as an entity of a kind; a misfit is a deserialization error. -/
def Entity.ofDocument (k : Kind) (doc : Value) : Except CodecError Entity :=
  (Schema.readEntity k doc).mapError .deserializeFailed

end GameVault
