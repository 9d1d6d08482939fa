import GameVault.Protocol.Session.Basic

namespace GameVault

namespace Protocol

open Outcome

/-- A signed 64-bit integer of a step. -/
def stepI64 (r : Message) (k : String) : Step Int64 := do
  pure (Int64.ofInt (← reading (req r k i64)))

/-- Builds an entity of a sample kind as the fixtures do: a named role (level one unless given),
an empty bag, or a pet of an owner at level one. The id is read first, then the kind as a text,
and only then is the kind's name looked at, so an unknown kind is refused only after a good id. -/
def makeEntity (r : Message) : Step Entity := do
  let id ← stepI64 r "id"
  let kindName ← reading (req r "kind" text)
  match kindName with
  | "role" =>
    let name ← reading (req r "name" text)
    let e := Entity.namedRole id name
    match r.get? "level" with
    | some l =>
      let level := (← reading (intAs "a u32" 0 4294967295 l)).toNat.toUInt32
      pure { e with body := .role name level 0 }
    | none => pure e
  | "bag" => pure (Entity.fresh .bag id)
  | "pet" =>
    let owner ← stepI64 r "owner"
    let species ← reading (req r "species" text)
    pure (Entity.newPet id owner species)
  | other => refuse ("make does not build " ++ quoted other)

/-- Runs a variable step, if `op` names one. -/
def variableStep (op : String) (r : Message) : Option (Step Message) :=
  match op with
  | "new" => some do
    let name ← reading (req r "kind" text)
    let doc ← reading (req r "doc" value)
    let k ← reading (kindNamed name)
    let e ← reading (ofCodec (Entity.ofDocument k doc))
    setVariable (← reading (req r "as" text)) e
    pure (shown e)
  | "show" => some do
    pure (shown (← entityIn (← reading (req r "var" text))))
  | "check" => some do
    let e ← entityIn (← reading (req r "var" text))
    let change ← reading (ofStore (e.checkChanges.mapError .codec))
    pure (.obj [("changed", .bool change.changed)])
  | "clone" => some do
    let e ← entityIn (← reading (req r "var" text))
    setVariable (← reading (req r "as" text)) e
    pure (.str "ok")
  | "mutate" => some do
    let change ← reading (field r "change")
    let name ← reading (req r "var" text)
    let e ← entityIn name
    let (change, m) ← reading (mutationOf e.kind change)
    let (applied, e') ← reading (applyMutation change m e)
    setVariable name e'
    pure (.obj [("applied", appliedMessage applied), ("state", shown e')])
  | "make" => some do
    let e ← makeEntity r
    setVariable (← reading (req r "as" text)) e
    pure (shown e)
  | "meta_eq" => some do
    let a ← entityIn (← reading (req r "a" text))
    let b ← entityIn (← reading (req r "b" text))
    pure (.bool (a.audit.sameRecord b.audit))
  | _ => none

end Protocol

end GameVault
