import GameVault.Protocol.Documents
import GameVault.Query.Sort
import GameVault.Entity.Fingerprint

namespace GameVault

namespace Protocol

open Outcome

/-- A `[field, x]` pair. -/
def fieldAnd (m : Message) : Outcome (String × Message) :=
  match m with
  | .arr [.str f, x] => pure (f, x)
  | .arr [_, _] => bad "field must be a string"
  | _ => bad "expected an array of 2"

/-- Folds a nonempty list with a binary combinator, left to right. -/
def foldNonempty (combine : Filter → Filter → Filter) : List Filter → Outcome Filter
  | [] => bad "and/or need one filter"
  | f :: fs => pure (fs.foldl combine f)

mutual
/-- Reads a filter. -/
def filterOf : Message → Outcome Filter
  | .str "All" => pure .all
  | .obj [(name, arg)] =>
    match name with
    | "Eq" | "Ne" | "Gt" | "Gte" | "Lt" | "Lte" => do
      let (f, x) ← fieldAnd arg
      let v ← valueOf x
      pure (match name with
        | "Eq" => .eq f v | "Ne" => .ne f v | "Gt" => .gt f v | "Gte" => .gte f v
        | "Lt" => .lt f v | _ => .lte f v)
    | "In" => do
      let (f, x) ← fieldAnd arg
      match x with
      | .arr xs => do pure (.oneOf f (← valuesOf xs))
      | _ => bad "In needs a list"
    | "Exists" => do
      let (f, x) ← fieldAnd arg
      match x with
      | .bool b => pure (.present f b)
      | _ => bad "Exists needs a bool"
    | "And" => match arg with
      | .arr fs => do pure (.conj (← filtersOf fs))
      | _ => bad "expected a list of filters"
    | "Or" => match arg with
      | .arr fs => do pure (.disj (← filtersOf fs))
      | _ => bad "expected a list of filters"
    | "Not" => do pure (.neg (← filterOf arg))
    | "id" => match arg with
      | .int n => if i64Min ≤ n ∧ n ≤ i64Max then pure (Filter.byId (Int64.ofInt n))
        else bad "id needs an i64"
      | _ => bad "id needs an i64"
    | "and" => match arg with
      | .arr fs => do foldNonempty Filter.and (← filtersOf fs)
      | _ => bad "expected a list of filters"
    | "or" => match arg with
      | .arr fs => do foldNonempty Filter.or (← filtersOf fs)
      | _ => bad "expected a list of filters"
    | "not" => do pure (← filterOf arg).not
    | other => bad ("unknown filter " ++ quoted other)
  | _ => bad "a filter is \"All\" or a one-key object"

/-- Reads a list of filters. -/
def filtersOf : List Message → Outcome (List Filter)
  | [] => pure []
  | m :: rest => do
    let f ← filterOf m
    pure (f :: (← filtersOf rest))
end

def filter (_what : String) (m : Message) : Outcome Filter := filterOf m

/-- An optional filter field; absent means every document. -/
def filterOr (r : Message) : Outcome Filter := optD r "filter" filter .all

mutual
/-- Writes a filter in constructor form. -/
def filterMessage : Filter → Message
  | .all => .str "All"
  | .eq f v => .obj [("Eq", .arr [.str f, valueMessage v])]
  | .ne f v => .obj [("Ne", .arr [.str f, valueMessage v])]
  | .gt f v => .obj [("Gt", .arr [.str f, valueMessage v])]
  | .gte f v => .obj [("Gte", .arr [.str f, valueMessage v])]
  | .lt f v => .obj [("Lt", .arr [.str f, valueMessage v])]
  | .lte f v => .obj [("Lte", .arr [.str f, valueMessage v])]
  | .oneOf f vs => .obj [("In", .arr [.str f, .arr (itemMessages vs)])]
  | .present f b => .obj [("Exists", .arr [.str f, .bool b])]
  | .conj fs => .obj [("And", .arr (filterMessages fs))]
  | .disj fs => .obj [("Or", .arr (filterMessages fs))]
  | .neg f => .obj [("Not", filterMessage f)]

/-- Writes a list of filters. -/
def filterMessages : List Filter → List Message
  | [] => []
  | f :: rest => filterMessage f :: filterMessages rest
end

/-- A `[field, ascending]` key. -/
def sortKeyOf (m : Message) : Outcome SortKey :=
  match m with
  | .arr [.str f, .bool b] => pure ⟨f, b⟩
  | .arr [.str _, _] => bad "key direction must be a bool"
  | .arr [_, _] => bad "key field must be a string"
  | _ => bad "expected an array of 2"

/-- A list of keys. -/
def sortKeys (_what : String) (m : Message) : Outcome (List SortKey) :=
  match m with
  | .arr items => items.mapM sortKeyOf
  | _ => bad "keys must be a list"

def sortKeyMessage (k : SortKey) : Message := .arr [.str k.field, .bool k.ascending]

/-- Writes find options. -/
def findOptionsMessage (o : FindOptions) : Message :=
  .obj [("sort", listOf sortKeyMessage o.sort), ("skip", .nat o.skip),
    ("limit", optionOf Message.nat o.limit)]

def indexInfoMessage (i : IndexInfo) : Message :=
  .obj [("name", .str i.name), ("keys", listOf sortKeyMessage i.keys)]

/-- What a filter makes of documents. -/
def filterReport (f : Filter) (docs : List Value) : Message :=
  .obj [("filter", filterMessage f), ("id_hint", optionOf (fun n => Message.int n.toInt) f.idHint),
    ("matches", listOf (fun d => Message.bool (f.admits d)) docs)]

/-- Neighbouring comparisons of a list. -/
def adjacentOrders (keys : List SortKey) : List Value → List Message
  | a :: b :: rest => orderingMessageOf (compareDocuments keys a b) :: adjacentOrders keys (b :: rest)
  | _ => []
where
  orderingMessageOf : Ordering → Message
    | .lt => .int (-1)
    | .eq => .int 0
    | .gt => .int 1

/-- Answers a request on queries, if `op` names one. -/
def queryOp (op : String) (r : Message) : Option (Outcome Message) :=
  match op with
  | "filter" => some do
    pure (filterReport (← req r "filter" filter) (← req r "docs" values))
  | "active" => some do
    pure (filterReport (Filter.active (← filterOr r)) (← optD r "docs" values []))
  | "sort_docs" => some do
    let keys ← req r "sort" sortKeys
    let docs ← req r "docs" values
    let order ← stableOrder docs (compareDocuments keys)
    pure (.obj [("order", listOf Message.nat order), ("adjacent", .arr (adjacentOrders keys docs))])
  | "page" => some do
    let index ← req r "index" i64
    let size ← req r "size" i64
    let page := match ← opt r "default" u64 with
      | some d => Page.clamped index size d
      | none => Page.clamped index size
    let asc ← optD r "ascending" bool true
    let key := (textIfAny r "key").getD "level"
    pure (.obj [("index", .nat page.index), ("size", .nat page.size), ("skip", .nat page.skip),
      ("sorted_page", findOptionsMessage (FindOptions.sortedPage key asc page)),
      ("sorted_first", findOptionsMessage (FindOptions.sortedFirst key asc))])
  | "index_name" => some do
    let model : IndexModel := ⟨← req r "keys" sortKeys, ← opt r "name" label⟩
    pure (.obj [("name", .str model.indexName), ("info", indexInfoMessage model.info)])
  | "fingerprint" => some do
    let f ← ofStore ((Fingerprint.of (← req r "value" value)).mapError .codec)
    pure (.obj [("fingerprint", .str f.hex)])
  | _ => none

end Protocol

end GameVault
