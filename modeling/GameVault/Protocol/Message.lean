import GameVault.Double.Basic

namespace GameVault

/-- A request or answer tree. -/
inductive Message where
  | null
  | bool (b : Bool)
  /-- An integer, from `-2 ^ 63` to `2 ^ 64 - 1` when read. -/
  | int (n : Int)
  /-- A number read as a double. -/
  | float (x : Double)
  | str (s : String)
  | arr (items : List Message)
  | obj (fields : List (String × Message))
  deriving Inhabited

namespace Message

def nat (n : Nat) : Message := int n

/-- The value of a field of a record; nothing for a missing field or a non-record. -/
def get? (m : Message) (key : String) : Option Message :=
  match m with
  | .obj fields => (fields.find? (·.1 == key)).map (·.2)
  | _ => none

/-- Whether the message is null. -/
def isNull : Message → Bool
  | .null => true
  | _ => false

end Message

end GameVault
