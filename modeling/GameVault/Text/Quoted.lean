import GameVault.Text.Hidden

namespace GameVault

namespace Quoted

/-- The written form of one character inside quotes. -/
def escapeChar (c : Char) : String :=
  match c with
  | '\t' => "\\t"
  | '\r' => "\\r"
  | '\n' => "\\n"
  | '\\' => "\\\\"
  | '"' => "\\\""
  | c =>
    if c.toNat = 0 then "\\0"
    else if Hidden.contains c then
      "\\u" ++ "\x7b" ++ String.ofList (Nat.toDigits 16 c.toNat) ++ "\x7d"
    else c.toString

/-- A text between double quotes with its characters escaped. -/
def quote (s : String) : String :=
  "\"" ++ String.join (s.toList.map escapeChar) ++ "\""

/-- The diagnostic form of a record with fields: its name, then each field with its written value,
in braces. -/
def record (name : String) (fields : List (String × String)) : String :=
  name ++ " \x7b " ++ ", ".intercalate (fields.map fun (k, v) => k ++ ": " ++ v) ++ " \x7d"

end Quoted

end GameVault
