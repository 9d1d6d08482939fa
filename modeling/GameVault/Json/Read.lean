import GameVault.Json.Number

namespace GameVault

namespace Json

def isSpace (c : Char) : Bool := c = ' ' || c = '\n' || c = '\t' || c = '\r'

/-- Skips whitespace. -/
def skipSpace : List Char → Nat → List Char × Nat
  | c :: rest, offset => if isSpace c then skipSpace rest (offset + 1) else (c :: rest, offset)
  | [], offset => ([], offset)

/-- The value of a hexadecimal digit. -/
def hexValue? (c : Char) : Option Nat :=
  if '0' ≤ c ∧ c ≤ '9' then some (c.toNat - '0'.toNat)
  else if 'a' ≤ c ∧ c ≤ 'f' then some (c.toNat - 'a'.toNat + 10)
  else if 'A' ≤ c ∧ c ≤ 'F' then some (c.toNat - 'A'.toNat + 10)
  else none

/-- Reads the four hexadecimal digits of a `\u` escape from the next four bytes of a text of
`total` bytes. Fewer bytes left is the end of the text; four bytes that are not four digits are
an invalid escape, reported after them. -/
def hexQuad (total : Nat) (cs : List Char) (offset : Nat) : Reads Nat :=
  if total < offset + 4 then failAt .eofWhileParsingString total
  else
    match cs with
    | a :: b :: c :: d :: rest =>
      match hexValue? a, hexValue? b, hexValue? c, hexValue? d with
      | some a, some b, some c, some d => .ok (((a * 16 + b) * 16 + c) * 16 + d, rest, offset + 4)
      | _, _, _, _ => failAt .invalidEscape (offset + 4)
    | _ => failAt .invalidEscape (offset + 4)

/-- Reads the character of a `\u` escape after the `u`. A trailing surrogate alone is refused; a
leading one must be followed by `\u` and a trailing one, and the pair gives one character. -/
def unicodeEscape (total : Nat) (cs : List Char) (offset : Nat) : Reads Char :=
  match hexQuad total cs offset with
  | .error e => .error e
  | .ok (n, cs, offset) =>
    if 0xDC00 ≤ n ∧ n ≤ 0xDFFF then failAt .loneLeadingSurrogateInHexEscape offset
    else if n < 0xD800 ∨ 0xDBFF < n then .ok (Char.ofNat n, cs, offset)
    else
      match cs with
      | [] => failAt .eofWhileParsingString offset
      | '\\' :: more =>
        match more with
        | [] => failAt .eofWhileParsingString (offset + 1)
        | 'u' :: more =>
          match hexQuad total more (offset + 2) with
          | .error e => .error e
          | .ok (m, more, offset) =>
            if m < 0xDC00 ∨ 0xDFFF < m then failAt .loneLeadingSurrogateInHexEscape offset
            else .ok (Char.ofNat ((n - 0xD800) * 1024 + (m - 0xDC00) + 0x10000), more, offset)
        | _ :: _ => failAt .unexpectedEndOfHexEscape (offset + 2)
      | _ :: _ => failAt .unexpectedEndOfHexEscape (offset + 1)

/-- The character of a one-letter escape. -/
def shortEscape : Char → Option Char
  | '"' => some '"'
  | '\\' => some '\\'
  | '/' => some '/'
  | 'b' => some (Char.ofNat 8)
  | 'f' => some (Char.ofNat 12)
  | 'n' => some '\n'
  | 'r' => some '\r'
  | 't' => some '\t'
  | _ => none

/-- Reads the rest of a text literal after its opening quote, the characters read so far in
`acc` (last first). A control character inside is refused after it; every character takes one
round, so the length of the text bounds the rounds. -/
def readText (total : Nat) : Nat → List Char → Nat → List Char → Reads String
  | 0, _, offset, _ => failAt .eofWhileParsingString offset
  | fuel + 1, cs, offset, acc =>
    match cs with
    | [] => failAt .eofWhileParsingString offset
    | '"' :: rest => .ok (String.ofList acc.reverse, rest, offset + 1)
    | '\\' :: rest =>
      match rest with
      | [] => failAt .eofWhileParsingString (offset + 1)
      | 'u' :: more =>
        match unicodeEscape total more (offset + 2) with
        | .ok (c, more, offset) => readText total fuel more offset (c :: acc)
        | .error e => .error e
      | e :: more =>
        match shortEscape e with
        | some c => readText total fuel more (offset + 2) (c :: acc)
        | none => failAt .invalidEscape (offset + 2)
    | c :: rest =>
      if c.toNat < 0x20 then failAt .controlCharacterWhileParsingString (offset + 1)
      else readText total fuel rest (offset + c.utf8Size) (c :: acc)

/-- Reads the rest of a word (`null`, `true`, `false`) after its first letter. -/
def readWord (word : List Char) (v : Message) : List Char → Nat → Reads Message
  | cs, offset =>
    match word, cs with
    | [], cs => .ok (v, cs, offset)
    | _ :: _, [] => failAt .eofWhileParsingValue offset
    | w :: ws, c :: rest =>
      if w = c then readWord ws v rest (offset + 1) else failAt .expectedSomeIdent (offset + 1)

/-- Adds a field to a record ordered by name, replacing a field of the same name. -/
def insertField (k : String) (v : Message) : List (String × Message) → List (String × Message)
  | [] => [(k, v)]
  | (k', v') :: rest =>
    if k = k' then (k, v) :: rest
    else if k < k' then (k, v) :: (k', v') :: rest
    else (k', v') :: insertField k v rest

/-- Where a list or record stands after an item: the characters at the next item, or the problem
found. The first item needs no comma; a later one needs a comma before it, or the closing
bracket. -/
def nextItem (first : Bool) (problem : Problem) (cs : List Char) (offset : Nat) :
    Except ReadError (List Char × Nat) :=
  match cs with
  | ',' :: rest => if first then .ok (cs, offset) else .ok (skipSpace rest (offset + 1))
  | _ => if first then .ok (cs, offset) else .error ⟨problem, ahead cs offset⟩

mutual
/-- Reads a value. `depth` is how many more lists and records may be opened, counting the one about
to be; each round reads at least one character or closes a list, so three rounds a character
suffice. -/
def readValue (total : Nat) : Nat → Nat → List Char → Nat → Reads Message
  | 0, _, _, offset => failAt .eofWhileParsingValue offset
  | fuel + 1, depth, cs, offset =>
    let (cs, offset) := skipSpace cs offset
    match cs with
    | [] => failAt .eofWhileParsingValue offset
    | c :: rest =>
      match c with
      | 'n' => readWord ['u', 'l', 'l'] .null rest (offset + 1)
      | 't' => readWord ['r', 'u', 'e'] (.bool true) rest (offset + 1)
      | 'f' => readWord ['a', 'l', 's', 'e'] (.bool false) rest (offset + 1)
      | '-' => readNumber false rest (offset + 1)
      | '"' =>
        match readText total (rest.length + 1) rest (offset + 1) [] with
        | .ok (s, rest, offset) => .ok (.str s, rest, offset)
        | .error e => .error e
      | '[' =>
        if depth ≤ 1 then failAt .recursionLimitExceeded (offset + 1)
        else readItems total fuel (depth - 1) true [] rest (offset + 1)
      | '{' =>
        if depth ≤ 1 then failAt .recursionLimitExceeded (offset + 1)
        else readFields total fuel (depth - 1) true [] rest (offset + 1)
      | c =>
        if c.isDigit then readNumber true cs offset
        else failAt .expectedSomeValue (offset + 1)

/-- Reads the items of a list after its opening bracket, the items so far in `acc` (last first). -/
def readItems (total : Nat) : Nat → Nat → Bool → List Message → List Char → Nat → Reads Message
  | 0, _, _, _, _, offset => failAt .eofWhileParsingList offset
  | fuel + 1, depth, first, acc, cs, offset =>
    let (cs, offset) := skipSpace cs offset
    match cs with
    | [] => failAt .eofWhileParsingList offset
    | ']' :: rest => .ok (.arr acc.reverse, rest, offset + 1)
    | _ :: _ =>
      match nextItem first .expectedListCommaOrEnd cs offset with
      | .error e => .error e
      | .ok (cs, offset) =>
        match cs with
        | [] => failAt .eofWhileParsingValue offset
        | ']' :: _ => failAt .trailingComma (offset + 1)
        | _ :: _ =>
          match readValue total fuel depth cs offset with
          | .ok (v, rest, offset) => readItems total fuel depth false (v :: acc) rest offset
          | .error e => .error e

/-- Reads the fields of a record after its opening brace, the fields so far in `acc`. -/
def readFields (total : Nat) :
    Nat → Nat → Bool → List (String × Message) → List Char → Nat → Reads Message
  | 0, _, _, _, _, offset => failAt .eofWhileParsingObject offset
  | fuel + 1, depth, first, acc, cs, offset =>
    let (cs, offset) := skipSpace cs offset
    match cs with
    | [] => failAt .eofWhileParsingObject offset
    | '}' :: rest => .ok (.obj acc, rest, offset + 1)
    | _ :: _ =>
      match nextItem first .expectedObjectCommaOrEnd cs offset with
      | .error e => .error e
      | .ok (cs, offset) =>
        match cs with
        | [] => failAt .eofWhileParsingValue offset
        | '}' :: _ => failAt .trailingComma (offset + 1)
        | '"' :: rest =>
          match readText total (rest.length + 1) rest (offset + 1) [] with
          | .error e => .error e
          | .ok (k, rest, offset) =>
            match skipSpace rest offset with
            | ([], offset) => failAt .eofWhileParsingObject offset
            | (':' :: rest, offset) =>
              match readValue total fuel depth rest (offset + 1) with
              | .ok (v, rest, offset) =>
                readFields total fuel depth false (insertField k v acc) rest offset
              | .error e => .error e
            | (_ :: _, offset) => failAt .expectedColon (offset + 1)
        | _ :: _ => failAt .keyMustBeAString (offset + 1)
end

/-- Reads a whole text as one value; only whitespace may follow it. -/
def read (s : String) : Except ReadError Message := do
  let cs := s.toList
  let total := s.utf8ByteSize
  let (v, rest, offset) ← readValue total (3 * cs.length + 3) 128 cs 0
  match skipSpace rest offset with
  | ([], _) => pure v
  | (_ :: _, offset) => throw ⟨.trailingCharacters, offset + 1⟩

/-- The line and column of a byte offset: lines are counted from one, and the column is the number
of bytes between the start of the line and the offset. -/
def lineColumn (cs : List Char) (offset : Nat) : Nat × Nat :=
  let rec go : List Char → Nat → Nat → Nat → Nat × Nat
    | [], _, line, start => (line, offset - start)
    | c :: rest, pos, line, start =>
      if pos < offset then
        if c = '\n' then go rest (pos + 1) (line + 1) (pos + 1)
        else go rest (pos + c.utf8Size) line start
      else (line, offset - start)
  go cs 0 1 0

/-- The text of a reading error: the problem, then where in the text it was found. -/
def ReadError.describe (s : String) (e : ReadError) : String :=
  let (line, column) := lineColumn s.toList e.offset
  e.problem.message ++ " at line " ++ toString line ++ " column " ++ toString column

end Json

end GameVault
