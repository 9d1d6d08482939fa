import GameVault.Protocol.Message
import GameVault.Double.Text

namespace GameVault

namespace Json

/-- Four lowercase hexadecimal digits of a number below `2 ^ 16`. -/
def hex4 (n : Nat) : String :=
  let ds := Nat.toDigits 16 n
  String.ofList (List.replicate (4 - ds.length) '0' ++ ds)

/-- The written form of one character of a text. -/
def escapeChar (c : Char) : String :=
  match c with
  | '"' => "\\\""
  | '\\' => "\\\\"
  | '\n' => "\\n"
  | '\r' => "\\r"
  | '\t' => "\\t"
  | c => if c.toNat < 0x20 then "\\u" ++ hex4 c.toNat else c.toString

def quoteText (s : String) : String := "\"" ++ String.join (s.toList.map escapeChar) ++ "\""

/-- The written form of a double. -/
def floatText (x : Double) : String :=
  if x.isFinite then Double.render .diagnostic x else "null"

mutual
/-- Writes a message. -/
def write : Message → String
  | .null => "null"
  | .bool b => if b then "true" else "false"
  | .int n => toString n
  | .float x => floatText x
  | .str s => quoteText s
  | .arr items => "[" ++ writeItems items ++ "]"
  | .obj fields => "\x7b" ++ writeFields fields ++ "\x7d"

/-- Writes list items separated by commas. -/
def writeItems : List Message → String
  | [] => ""
  | [m] => write m
  | m :: rest => write m ++ "," ++ writeItems rest

/-- Writes record fields separated by commas. -/
def writeFields : List (String × Message) → String
  | [] => ""
  | [(k, v)] => quoteText k ++ ":" ++ write v
  | (k, v) :: rest => quoteText k ++ ":" ++ write v ++ "," ++ writeFields rest
end

end Json

end GameVault
