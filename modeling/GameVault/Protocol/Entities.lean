import GameVault.Protocol.Queries
import GameVault.Protocol.Documents
import GameVault.Entity.Mutation
import GameVault.Store.Basic

namespace GameVault

namespace Protocol

open Outcome

/-- The stamp fields whose clock values are hidden. -/
def stampFields : List String := ["create_time", "update_time", "delete_time"]

/-- Whether a stamp lies in the range the clock produces. -/
def fromClock (n : Int64) : Bool := 1000000000000 ≤ n.toInt && n.toInt < 10000000000000

/-- A stamp, hidden when `hideClock` and it comes from the clock. -/
def stampMessage (hideClock : Bool) (n : Int64) : Message :=
  if hideClock && fromClock n then .str "<clock>" else .int n.toInt

/-- A document entry, its stamp hidden as `stampMessage` says. -/
def entryMessage (hideClock : Bool) : Value × Value → Message
  | (.text key, .int n) =>
    .arr [.str key, if stampFields.contains key then stampMessage hideClock n else .int n.toInt]
  | (k, v) => .arr [valueMessage k, valueMessage v]

/-- A document, its top-level stamps hidden as `stampMessage` says. -/
def documentMessage (hideClock : Bool) : Value → Message
  | .map entries => .obj [("$map", .arr (entries.map (entryMessage hideClock)))]
  | v => valueMessage v

/-- An audit record. -/
def auditMessage (hideClock : Bool) (a : Audit) : Message :=
  .obj [("id", .int a.id.toInt), ("create_time", stampMessage hideClock a.createTime),
    ("update_time", stampMessage hideClock a.updateTime),
    ("delete_time", stampMessage hideClock a.deleteTime), ("update_count", .nat a.updateCount.toNat),
    ("is_deleted", .bool a.isDeleted)]

def hooksMessage (h : Hooks) : Message :=
  .obj [("loads", .nat h.loads), ("last_is_new", optionOf .bool h.lastIsNew), ("saves", .nat h.saves)]

/-- An entity. -/
def stateMessage (hideClock : Bool) (e : Entity) : Message :=
  .obj [("kind", .str e.kind.name), ("meta", auditMessage hideClock e.audit),
    ("doc", match e.document with
      | .ok doc => documentMessage hideClock doc
      | .error c => (Failure.codec c).toMessage),
    ("hooks", if e.kind.logsHooks then hooksMessage e.hooks else .null),
    ("tracked", .bool e.audit.baseline.isSome)]

/-- The kind of a name. -/
def kindNamed (name : String) : Outcome Kind :=
  match Kind.ofName? name with
  | some k => pure k
  | none => bad ("unknown kind " ++ quoted name)

def kind (what : String) (m : Message) : Outcome Kind := do
  kindNamed (← text what m)

/-- An integer of a change, refused as `expected <type>`. -/
def changeInt (typ : String) (lo hi : Int) (m : Message) : Outcome Int := intAs typ lo hi m

/-- A change is the text `"touch"`, or a record of one field: the name of the change and its
argument. -/
inductive ChangeShape where
  | touch
  | named (name : String) (arg : Message)

/-- The shape of a change. -/
def changeShape (m : Message) : Outcome ChangeShape :=
  match m with
  | .str "touch" => pure .touch
  | .obj [(name, arg)] => pure (.named name arg)
  | _ => bad "a change is \"touch\" or a one-key object"

/-- A text argument of a named change. -/
def changeText (name : String) (m : Message) : Outcome String :=
  match m with
  | .str s => pure s
  | _ => bad (name ++ " needs a string")

/-- A signed 64-bit argument of a named change. -/
def changeI64 (name : String) (m : Message) : Outcome Int64 :=
  match m with
  | .int n => if i64Min ≤ n ∧ n ≤ i64Max then pure (Int64.ofInt n) else bad (name ++ " needs an i64")
  | _ => bad (name ++ " needs an i64")

def changeU32 (m : Message) : Outcome UInt32 := do
  pure (← changeInt "a u32" 0 4294967295 m).toNat.toUInt32

def changeI32 (m : Message) : Outcome Int32 := do
  pure (Int32.ofInt (← changeInt "an i32" (-2147483648) 2147483647 m))

/-- Reads a change written as a record of one field, for an entity of kind `k`. -/
def namedMutation (k : Kind) (name : String) (arg : Message) : Outcome (String × Mutation) := do
  let change ← match name, k with
    | "set_id", _ => do pure (.setId (← changeI64 name arg))
    | "rename", .role | "rename", .impostor => do pure (.rename (← changeText name arg))
    | "level_up", .role => do pure (.levelUp (← changeU32 arg))
    | "earn", .role => do pure (.earn (← changeI32 arg))
    | "set_level", .role => do pure (.setLevel (← changeU32 arg))
    | "set_gold", .role => do pure (.setGold (← changeI64 name arg))
    | "put", .bag => match arg with
      | .arr [item, count] => do pure (.put (← changeI32 item) (← changeU32 count))
      | _ => bad "expected an array of 2"
    | "remove_item", .bag => do pure (.removeItem (← changeI32 arg))
    | "clear", .bag => pure .clear
    | "owner", .pet => do pure (.owner (← changeI64 name arg))
    | "species", .pet => do pure (.species (← changeText name arg))
    | "level", .pet => do pure (.petLevel (← changeU32 arg))
    | _, _ => bad ("change " ++ quoted name ++ " does not apply")
  pure (name, change)

/-- Reads a change for an entity of kind `k`. Touching, written only as the text `"touch"`, and
setting the id apply to every kind; every other change belongs to one kind (renaming to roles and
impostors), and a change that does not belong to `k` is refused before its argument is read. -/
def mutationOf (k : Kind) (m : Message) : Outcome (String × Mutation) := do
  match ← changeShape m with
  | .touch => pure ("touch", .touch)
  | .named name arg => namedMutation k name arg

/-- What a change reports. -/
def appliedMessage : Applied → Message
  | .nothing => .null
  | .changed b => .bool b
  | .count n => optionOf (fun c => .nat c.toNat) n

/-- Applies a named change to an entity. -/
def applyMutation (name : String) (m : Mutation) (e : Entity) : Outcome (Applied × Entity) :=
  match m.apply e with
  | .ok r => pure r
  | .error .notApplicable => bad ("change " ++ quoted name ++ " does not apply")
  | .error (.overflow field) => bad (field ++ " overflow")

/-- Answers a request on entities, if `op` names one. -/
def entityOp (op : String) (r : Message) : Option (Outcome Message) :=
  match op with
  | "state_doc" => some do
    let name ← req r "kind" text
    let doc ← req r "doc" value
    let k ← kindNamed name
    let e ← ofCodec (Entity.ofDocument k doc)
    let change ← ofStore (e.checkChanges.mapError .codec)
    pure (.obj [("state", stateMessage false e), ("changed", .bool change.changed)])
  | _ => none

end Protocol

end GameVault
