import GameVault.Value.Basic
import GameVault.Double.Round

namespace GameVault

/-- Lexicographic comparison of byte lists. -/
def compareBytes : List UInt8 → List UInt8 → Ordering
  | [], [] => .eq
  | [], _ :: _ => .lt
  | _ :: _, [] => .gt
  | a :: as, b :: bs => (compare a b).then (compareBytes as bs)

/-- Bytes of the head that carries the argument `n`: one up to `23`, then two, three, five or nine. -/
def headLength (n : Nat) : Nat :=
  if n ≤ 23 then 1 else if n ≤ 0xFF then 2 else if n ≤ 0xFFFF then 3
  else if n ≤ 0xFFFFFFFF then 5 else 9

/-- The argument that encodes an integer: itself when nonnegative, `-1 - n` otherwise. -/
def intArgument (n : Int64) : Nat :=
  if 0 ≤ n.toInt then n.toInt.toNat else (-1 - n.toInt).toNat

namespace Value

/-- The major type of the canonical encoding. Booleans, null and doubles share type 7. -/
def majorType : Value → Nat
  | .int n => if 0 ≤ n.toInt then 0 else 1
  | .bytes _ => 2
  | .text _ => 3
  | .array _ => 4
  | .map _ => 5
  | _ => 7

/-- Position among the values of major type 7: the encoded byte, then the bits of a double. -/
def simpleRank : Value → Nat × Nat
  | .bool false => (0xF4, 0)
  | .bool true => (0xF5, 0)
  | .null => (0xF6, 0)
  | .float x => (0xFB, x.canonical.bits.toNat)
  | _ => (0, 0)

/-- Lexicographic comparison of pairs of naturals. -/
def comparePairs (a b : Nat × Nat) : Ordering := (compare a.1 b.1).then (compare a.2 b.2)

mutual
/-- The canonical order: the order of the canonical encodings of two values. -/
def canonicalCmp : Value → Value → Ordering
  | .int a, .int b =>
    if (0 ≤ a.toInt) = (0 ≤ b.toInt) then
      comparePairs (headLength (intArgument a), intArgument a) (headLength (intArgument b), intArgument b)
    else compare (Value.int a).majorType (Value.int b).majorType
  | .bytes a, .bytes b => (compare a.length b.length).then (compareBytes a b)
  | .text a, .text b =>
    (compare a.utf8ByteSize b.utf8ByteSize).then (compareBytes a.toUTF8.toList b.toUTF8.toList)
  | .array a, .array b => (compare a.length b.length).then (canonicalItems a b)
  | .map a, .map b => (compare a.length b.length).then (canonicalEntries a b)
  | a, b =>
    if a.majorType = b.majorType then comparePairs a.simpleRank b.simpleRank
    else compare a.majorType b.majorType

/-- The first difference of two element lists in the canonical order. -/
def canonicalItems : List Value → List Value → Ordering
  | x :: xs, y :: ys => (canonicalCmp x y).then (canonicalItems xs ys)
  | _, _ => .eq

/-- The first difference of two pair lists in the canonical order, key before value. -/
def canonicalEntries : List (Value × Value) → List (Value × Value) → Ordering
  | (k, v) :: xs, (k', v') :: ys =>
    ((canonicalCmp k k').then (canonicalCmp v v')).then (canonicalEntries xs ys)
  | _, _ => .eq
end

/-- Rank of a kind in the query order. -/
def queryRank : Value → Nat
  | .null => 0
  | .int _ => 1
  | .float _ => 1
  | .text _ => 2
  | .map _ => 3
  | .array _ => 4
  | .bytes _ => 5
  | .bool _ => 6

mutual
/-- The query order used by filters and sorts. -/
def queryCmp : Value → Value → Ordering
  | .int a, .int b => compare a.toInt b.toInt
  | .float a, .float b => a.totalCmp b
  | .int a, .float b => (Double.ofInt a.toInt).totalCmp b
  | .float a, .int b => a.totalCmp (Double.ofInt b.toInt)
  | .text a, .text b => compare a b
  | .bytes a, .bytes b => (compare a.length b.length).then (compareBytes a b)
  | .bool a, .bool b => compare a b
  | .array a, .array b => queryItems a b
  | .map a, .map b => queryEntries a b
  | a, b => compare a.queryRank b.queryRank

/-- Element lists in the query order: the first difference, else the shorter first. -/
def queryItems : List Value → List Value → Ordering
  | [], [] => .eq
  | [], _ :: _ => .lt
  | _ :: _, [] => .gt
  | x :: xs, y :: ys => (queryCmp x y).then (queryItems xs ys)

/-- Pair lists in the query order: key, then value, pair by pair; else the shorter first. -/
def queryEntries : List (Value × Value) → List (Value × Value) → Ordering
  | [], [] => .eq
  | [], _ :: _ => .lt
  | _ :: _, [] => .gt
  | (k, v) :: xs, (k', v') :: ys =>
    ((queryCmp k k').then (queryCmp v v')).then (queryEntries xs ys)
end

/-- Sorts pairs by the canonical order of their keys, keeping the order of equal keys. -/
def sortEntries (entries : List (Value × Value)) : List (Value × Value) :=
  entries.mergeSort fun a b => canonicalCmp a.1 b.1 != .gt

/-- A map from pairs, keys sorted canonically; duplicates are kept in their given order. -/
def ofPairs (entries : List (Value × Value)) : Value := .map (sortEntries entries)

def emptyMap : Value := .map []

/-- Sets a text key of a map and returns the previous value. An existing pair keeps its place; a new
pair is added and the pairs are sorted again. Other values are left alone. -/
def set (v : Value) (key : String) (x : Value) : Option Value × Value :=
  match v with
  | .map entries =>
    match replaceFirst key x entries with
    | some (old, entries') => (some old, .map entries')
    | none => (none, .map (sortEntries (entries ++ [(.text key, x)])))
  | _ => (none, v)

end Value

end GameVault
