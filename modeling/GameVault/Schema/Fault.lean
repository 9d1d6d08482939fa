import GameVault.Double.Text
import GameVault.Text.Quoted

namespace GameVault

/-- What a record decoder found in a document where it expected something else. -/
inductive Found where
  | bool (b : Bool)
  | int (n : Int)
  | float (x : Double)
  | bytes
  | text (s : String)
  | sequence
  | map
  /-- A null read as a value of its own. -/
  | null
  /-- A null read through the buffer of unclaimed fields, where it stands for an absent option. -/
  | absent

/-- How a found value is named in a fault. -/
def Found.describe : Found → String
  | .bool b => "boolean `" ++ toString b ++ "`"
  | .int n => "integer `" ++ toString n ++ "`"
  | .float x => "floating point `" ++ Double.render Double.Style.mismatch x ++ "`"
  | .bytes => "byte array"
  | .text s => "string " ++ Quoted.quote s
  | .sequence => "sequence"
  | .map => "map"
  | .null => "null"
  | .absent => "Option value"

/-- Why a document does not decode into a record. -/
inductive SchemaFault where
  /-- A value of the wrong kind. -/
  | invalidType (found : Found) (expected : String)
  /-- A value of the right kind outside the allowed range. -/
  | invalidValue (found : Found) (expected : String)
  | missingField (name : String)
  | duplicateField (name : String)

/-- The wording of a schema fault. -/
def SchemaFault.message : SchemaFault → String
  | .invalidType f e => "invalid type: " ++ f.describe ++ ", expected " ++ e
  | .invalidValue f e => "invalid value: " ++ f.describe ++ ", expected " ++ e
  | .missingField n => "missing field `" ++ n ++ "`"
  | .duplicateField n => "duplicate field `" ++ n ++ "`"

end GameVault
