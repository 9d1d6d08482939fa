import GameVault.Value.Basic
import GameVault.Double.Text
import GameVault.Text.Quoted

namespace GameVault

namespace Value

mutual
/-- The diagnostic form of a value. -/
def diagnostic : Value → String
  | .null => "Null"
  | .bool b => "Bool(" ++ toString b ++ ")"
  | .int n => "Integer(" ++ toString n.toInt ++ ")"
  | .float x => "Float(" ++ Double.render Double.Style.diagnostic x ++ ")"
  | .bytes bs => "Bytes([" ++ ", ".intercalate (bs.map fun b => toString b.toNat) ++ "])"
  | .text s => "Text(" ++ Quoted.quote s ++ ")"
  | .array items => "Array([" ++ diagnosticItems items ++ "])"
  | .map entries => "Map([" ++ diagnosticEntries entries ++ "])"

/-- Diagnostic forms of elements, separated by commas. -/
def diagnosticItems : List Value → String
  | [] => ""
  | [x] => diagnostic x
  | x :: xs => diagnostic x ++ ", " ++ diagnosticItems xs

/-- Diagnostic forms of pairs, separated by commas. -/
def diagnosticEntries : List (Value × Value) → String
  | [] => ""
  | [(k, v)] => "(" ++ diagnostic k ++ ", " ++ diagnostic v ++ ")"
  | (k, v) :: rest => "(" ++ diagnostic k ++ ", " ++ diagnostic v ++ "), " ++ diagnosticEntries rest
end

end Value

end GameVault
