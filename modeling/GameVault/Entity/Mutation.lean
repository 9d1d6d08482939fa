import GameVault.Entity.Basic

namespace GameVault

/-- A change of an entity. -/
inductive Mutation where
  | touch
  | rename (name : String)
  | levelUp (levels : UInt32)
  | earn (amount : Int32)
  | setLevel (level : UInt32)
  | setGold (gold : Int64)
  | put (item : Int32) (count : UInt32)
  | removeItem (item : Int32)
  | clear
  | owner (id : Int64)
  | species (name : String)
  | petLevel (level : UInt32)
  | setId (id : Int64)

/-- Why a change was refused. -/
inductive MutationFault where
  /-- The change is about a field the entity does not have. -/
  | notApplicable
  /-- The result does not fit the integer type of the named field. -/
  | overflow (field : String)

/-- What a change reports: whether it changed the role, or the count an item had. -/
inductive Applied where
  | nothing
  | changed (b : Bool)
  | count (n : Option UInt32)

def saturatingAdd (a b : UInt32) : UInt32 :=
  if a.toNat + b.toNat ≤ 4294967295 then a + b else 4294967295

def itemCount (items : List (Int32 × UInt32)) (item : Int32) : Option UInt32 := items.lookup item

namespace Mutation

/-- Applies a change to an entity's own fields. -/
def applyBody : Mutation → Body → Except MutationFault (Applied × Body)
  | .touch, b => .ok (.changed false, b)
  | .rename n, .role name level gold => .ok (.changed (name != n), .role n level gold)
  | .rename n, .impostor _ => .ok (.nothing, .impostor n)
  | .levelUp k, .role name level gold =>
    let l := saturatingAdd level k
    .ok (.changed (l != level), .role name l gold)
  | .earn a, .role name level gold =>
    let g := gold.toInt + a.toInt
    if -9223372036854775808 ≤ g ∧ g ≤ 9223372036854775807 then
      .ok (.changed (a != 0), .role name level (Int64.ofInt g))
    else .error (.overflow "gold")
  | .setLevel l, .role name _ gold => .ok (.nothing, .role name l gold)
  | .setGold g, .role name level _ => .ok (.nothing, .role name level g)
  | .put item n, .bag items =>
    let total := ((itemCount items item).map (·.toNat)).getD 0 + n.toNat
    if total ≤ 4294967295 then .ok (.nothing, .bag (Schema.putCount item total.toUInt32 items))
    else .error (.overflow "count")
  | .removeItem item, .bag items => .ok (.count (itemCount items item), .bag (items.filter (·.1 ≠ item)))
  | .clear, .bag _ => .ok (.nothing, .bag [])
  | .owner id, .pet _ kind level => .ok (.nothing, .pet id kind level)
  | .species s, .pet who _ level => .ok (.nothing, .pet who s level)
  | .petLevel l, .pet who kind _ => .ok (.nothing, .pet who kind l)
  | _, _ => .error .notApplicable

/-- Applies a change to an entity. -/
def apply (m : Mutation) (e : Entity) : Except MutationFault (Applied × Entity) :=
  match m with
  | .setId id => .ok (.nothing, { e with audit := { e.audit with id } })
  | m => do
    let (a, body) ← m.applyBody e.body
    pure (a, { e with body })

end Mutation

end GameVault
