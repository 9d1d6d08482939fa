import GameVault.Query.Filter

namespace GameVault

def u64Max : Nat := 18446744073709551615

/-- Sort by one field. -/
structure SortKey where
  field : String
  ascending : Bool
  deriving Inhabited, DecidableEq

namespace SortKey

/-- Compares two documents by this key. -/
def compare (k : SortKey) (a b : Value) : Ordering :=
  let o := ((a.getPath? k.field).getD .null).queryCmp ((b.getPath? k.field).getD .null)
  if k.ascending then o else o.swap

/-- The number of an index direction: `1` ascending, `-1` descending. -/
def direction (k : SortKey) : Int := if k.ascending then 1 else -1

end SortKey

/-- Compares two documents by keys in turn; the first that differs decides. -/
def compareDocuments : List SortKey → Value → Value → Ordering
  | [], _, _ => .eq
  | k :: ks, a, b => (k.compare a b).then (compareDocuments ks a b)

/-- How a find selects: sort keys, documents to skip, and at most how many to return. -/
structure FindOptions where
  sort : List SortKey := []
  skip : Nat := 0
  limit : Option Nat := none
  deriving Inhabited

/-- Page size when the caller gives none that is positive. -/
def defaultPageSize : Nat := 10

/-- A page request after clamping. -/
structure Page where
  index : Nat
  size : Nat
  deriving Inhabited, DecidableEq

namespace Page

/-- Clamps raw input: a negative index is `0`, a size that is not positive is `fallback` (at least
one). -/
def clamped (index size : Int) (fallback : Nat := defaultPageSize) : Page :=
  ⟨index.toNat, if 0 < size then size.toNat else max fallback 1⟩

/-- Documents before the page, saturating. -/
def skip (p : Page) : Nat := min (p.index * p.size) u64Max

end Page

namespace FindOptions

def sortedFirst (key : String) (ascending : Bool) : FindOptions :=
  { sort := [⟨key, ascending⟩], limit := some 1 }

/-- One page in the order of one key. -/
def sortedPage (key : String) (ascending : Bool) (p : Page) : FindOptions :=
  { sort := [⟨key, ascending⟩], skip := p.skip, limit := some p.size }

end FindOptions

/-- An index to create: its key fields in order, and an explicit name if any. -/
structure IndexModel where
  keys : List SortKey
  name : Option String := none
  deriving Inhabited

/-- The name an index is stored under: the explicit name, else `field_direction` for each key
joined by `_` (`level_1`, `level_-1_name_1`). -/
def IndexModel.indexName (m : IndexModel) : String :=
  match m.name with
  | some n => n
  | none => "_".intercalate (m.keys.map fun k => k.field ++ "_" ++ toString k.direction)

/-- An existing index: its name and keys. -/
structure IndexInfo where
  name : String
  keys : List SortKey
  deriving Inhabited

/-- The description of an index created from a model. -/
def IndexModel.info (m : IndexModel) : IndexInfo := ⟨m.indexName, m.keys⟩

end GameVault
