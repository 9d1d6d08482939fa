import GameVault.Value.Order

namespace GameVault

/-- A filter over documents. -/
inductive Filter where
  | all
  | eq (field : String) (v : Value)
  | ne (field : String) (v : Value)
  | gt (field : String) (v : Value)
  | gte (field : String) (v : Value)
  | lt (field : String) (v : Value)
  | lte (field : String) (v : Value)
  /-- The field equals one of the values. -/
  | oneOf (field : String) (vs : List Value)
  /-- The field is present (`true`) or absent (`false`). -/
  | present (field : String) (flag : Bool)
  /-- Every filter matches. -/
  | conj (fs : List Filter)
  /-- Some filter matches. -/
  | disj (fs : List Filter)
  | neg (f : Filter)
  deriving Inhabited

namespace Value

/-- Whether two values are of the same kind for comparison: both numbers, or the same constructor. -/
def sameKind : Value → Value → Bool
  | .int _, .int _ | .int _, .float _ | .float _, .int _ | .float _, .float _ => true
  | .null, .null | .bool _, .bool _ | .bytes _, .bytes _ | .text _, .text _ => true
  | .array _, .array _ | .map _, .map _ => true
  | _, _ => false

/-- Whether `a` equals `b` for a filter: same kind and equal in the query order. -/
def queryEq (a b : Value) : Bool := sameKind a b && queryCmp a b == .eq

end Value

namespace Filter

def idField : String := "id"

def byId (n : Int64) : Filter := .eq idField (.int n)

/-- Whether a found field equals `expected`: a missing field equals only null, an array field also
equals a non-array it holds. -/
def fieldEquals (found : Option Value) (expected : Value) : Bool :=
  match found with
  | none => expected.isNull
  | some actual =>
    actual.queryEq expected ||
      match actual, expected with
      | .array _, .array _ => false
      | .array items, _ => items.any fun item => item.queryEq expected
      | _, _ => false

/-- Whether a found field of the same kind as `bound` relates to it as `accept` asks. -/
def fieldCompares (found : Option Value) (bound : Value) (accept : Ordering → Bool) : Bool :=
  match found with
  | some actual => actual.sameKind bound && accept (actual.queryCmp bound)
  | none => false

mutual
/-- Whether a filter selects a document. -/
def selects (doc : Value) : Filter → Bool
  | .all => true
  | .eq f v => fieldEquals (doc.getPath? f) v
  | .ne f v => !fieldEquals (doc.getPath? f) v
  | .gt f v => fieldCompares (doc.getPath? f) v (· == .gt)
  | .gte f v => fieldCompares (doc.getPath? f) v (· != .lt)
  | .lt f v => fieldCompares (doc.getPath? f) v (· == .lt)
  | .lte f v => fieldCompares (doc.getPath? f) v (· != .gt)
  | .oneOf f vs => vs.any fun v => fieldEquals (doc.getPath? f) v
  | .present f flag => (doc.getPath? f).isSome == flag
  | .conj fs => selectsAll doc fs
  | .disj fs => selectsAny doc fs
  | .neg f => !selects doc f

/-- Whether every filter of a list selects a document. -/
def selectsAll (doc : Value) : List Filter → Bool
  | [] => true
  | f :: fs => selects doc f && selectsAll doc fs

/-- Whether some filter of a list selects a document. -/
def selectsAny (doc : Value) : List Filter → Bool
  | [] => false
  | f :: fs => selects doc f || selectsAny doc fs
end

/-- Whether a filter selects a document (filter first). -/
def admits (f : Filter) (doc : Value) : Bool := selects doc f

mutual
/-- The id a filter pins: an `id` equal to an integer, at the top or inside a conjunction. -/
def idHint : Filter → Option Int64
  | .eq f (.int n) => if f == idField then some n else none
  | .conj fs => idHintOf fs
  | _ => none

/-- The first id pinned by a filter of a list. -/
def idHintOf : List Filter → Option Int64
  | [] => none
  | f :: fs => (idHint f).or (idHintOf fs)
end

/-- Conjunction: `all` is the identity and conjunctions are joined into one. -/
def and : Filter → Filter → Filter
  | .all, f => f
  | f, .all => f
  | .conj l, .conj r => .conj (l ++ r)
  | .conj l, f => .conj (l ++ [f])
  | f, .conj r => .conj (f :: r)
  | a, b => .conj [a, b]

/-- Disjunction: disjunctions are joined into one. -/
def or : Filter → Filter → Filter
  | .disj l, .disj r => .disj (l ++ r)
  | .disj l, f => .disj (l ++ [f])
  | a, b => .disj [a, b]

/-- Negation: the negation of a negation is the filter inside. -/
def not : Filter → Filter
  | .neg f => f
  | f => .neg f

def deletedField : String := "is_deleted"

/-- Only documents not marked deleted, then `f`. -/
def active (f : Filter) : Filter := (Filter.eq deletedField (.bool false)).and f

end Filter

end GameVault
