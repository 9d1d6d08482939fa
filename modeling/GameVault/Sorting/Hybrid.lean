
namespace GameVault

namespace Sorting

/-- Which presort small sorts use: blocks of eight for narrow elements, of four otherwise. -/
structure Profile where
  blocksOfEight : Bool

/-- Inputs up to this length are sorted by insertion alone. -/
def insertionLimit : Nat := 20

/-- Stretches up to this length are sorted by a small sort. -/
def smallLimit : Nat := 32

section

variable {α : Type} [Inhabited α] (lt : α → α → Bool)

/-- Splits a list into a prefix and its longest suffix of elements satisfying `p`. -/
def spanRight (p : α → Bool) (xs : List α) : List α × List α :=
  let r := xs.reverse
  ((r.dropWhile p).reverse, (r.takeWhile p).reverse)

/-- Puts an element after a sorted list and moves it left past every element it is less than,
stopping at the first that it is not less than. -/
def insertTail (s : List α) (x : α) : List α :=
  let (pre, suf) := spanRight (lt x ·) s
  pre ++ x :: suf

/-- Inserts elements one after another into a sorted list. -/
def insertAll (s : List α) (rest : List α) : List α := rest.foldl (insertTail lt) s

/-- Insertion sort. -/
def insertionSort : List α → List α
  | [] => []
  | x :: rest => insertAll lt [x] rest

/-- Sorts four elements with five comparisons: two pairs, then their minimum and maximum, then the
two left over. -/
def sortFour (v0 v1 v2 v3 : α) : List α :=
  let c1 := lt v1 v0
  let c2 := lt v3 v2
  let a := if c1 then v1 else v0
  let b := if c1 then v0 else v1
  let c := if c2 then v3 else v2
  let d := if c2 then v2 else v3
  let c3 := lt c a
  let c4 := lt d b
  let lowest := if c3 then c else a
  let highest := if c4 then b else d
  let left := if c3 then a else if c4 then c else b
  let right := if c4 then d else if c3 then b else c
  let c5 := lt right left
  [lowest, if c5 then right else left, if c5 then left else right, highest]

/-- Sorts the four elements from position `i`. -/
def sortFourAt (v : Array α) (i : Nat) : List α :=
  sortFour lt (v.getD i default) (v.getD (i + 1) default) (v.getD (i + 2) default)
    (v.getD (i + 3) default)

/-- The state of a merge from both ends: the next element of each half from the front and from
the back, and the elements placed at the front and at the back so far. -/
structure Ends (α : Type) where
  left : Nat
  right : Nat
  leftBack : Int
  rightBack : Int
  front : Array α
  back : List α

/-- One step from each end: the front takes the lesser of the two fronts (the left one on a tie),
the back the greater of the two backs (the right one on a tie). -/
def mergeStep (src : Array α) (e : Ends α) : Ends α :=
  let l := src.getD e.left default
  let r := src.getD e.right default
  let takeLeft := !lt r l
  let lb := src.getD e.leftBack.toNat default
  let rb := src.getD e.rightBack.toNat default
  let backLeft := lt rb lb
  { left := if takeLeft then e.left + 1 else e.left
    right := if takeLeft then e.right else e.right + 1
    front := e.front.push (if takeLeft then l else r)
    leftBack := if backLeft then e.leftBack - 1 else e.leftBack
    rightBack := if backLeft then e.rightBack else e.rightBack - 1
    back := (if backLeft then lb else rb) :: e.back }

/-- Merges the sorted halves `src[0, n/2)` and `src[n/2, n)` from both ends at once; `none` when
the halves were not consumed exactly, which only an inconsistent test causes. -/
def mergeFromBothEnds (src : Array α) : Option (Array α) :=
  let len := src.size
  let half := len / 2
  let start : Ends α := ⟨0, half, (half : Int) - 1, (len : Int) - 1, #[], []⟩
  let e := (List.range half).foldl (fun e _ => mergeStep lt src e) start
  let leftEnd := e.leftBack + 1
  let rightEnd := e.rightBack + 1
  let (e, front) :=
    if len % 2 = 1 then
      let leftNonempty := (e.left : Int) < leftEnd
      let x := if leftNonempty then src.getD e.left default else src.getD e.right default
      ({ e with left := if leftNonempty then e.left + 1 else e.left,
                right := if leftNonempty then e.right else e.right + 1 }, e.front.push x)
    else (e, e.front)
  if (e.left : Int) = leftEnd && (e.right : Int) = rightEnd then some (front ++ e.back.toArray)
  else none

/-- Sorts the eight elements from position `i`: two sorted fours merged from both ends. -/
def sortEightAt (v : Array α) (i : Nat) : Option (List α) := do
  let merged ← mergeFromBothEnds lt (sortFourAt lt v i ++ sortFourAt lt v (i + 4)).toArray
  pure merged.toList

/-- The small sort: each half is presorted (blocks of eight or four, or one element) and completed
by insertion, then the halves are merged from both ends. -/
def smallSort (p : Profile) (v : Array α) : Option (Array α) := do
  let len := v.size
  if len < 2 then return v
  let half := len / 2
  let (count, first, second) ←
    if p.blocksOfEight && 16 ≤ len then do
      pure (8, ← sortEightAt lt v 0, ← sortEightAt lt v half)
    else if 8 ≤ len then pure (4, sortFourAt lt v 0, sortFourAt lt v half)
    else pure (1, [v.getD 0 default], [v.getD half default])
  let a := insertAll lt first (v.extract count half).toList
  let b := insertAll lt second (v.extract (half + count) len).toList
  mergeFromBothEnds lt (a ++ b).toArray

/-- Splits a stretch stably: an element goes left when `goesLeft` holds of it and the pivot (the
pivot itself goes left when `pivotLeft`); both sides keep their order. -/
def partition (goesLeft : α → α → Bool) (v : Array α) (pivotPos : Nat) (pivotLeft : Bool) :
    Array α × Array α :=
  let pivot := v.getD pivotPos default
  let tagged := v.toList.zipIdx.map fun p => (p.1, if p.2 = pivotPos then pivotLeft else goesLeft p.1 pivot)
  ((tagged.filter (·.2)).map (·.1) |>.toArray, (tagged.filter (!·.2)).map (·.1) |>.toArray)

/-- The position of the median of three positions. -/
def median3 (v : Array α) (a b c : Nat) : Nat :=
  let x := lt (v.getD a default) (v.getD b default)
  let y := lt (v.getD a default) (v.getD c default)
  if x == y then
    let z := lt (v.getD b default) (v.getD c default)
    if z != x then c else b
  else a

/-- The median of three medians, each taken recursively over its eighth. -/
def median3Rec (v : Array α) (a b c n : Nat) : Nat :=
  if h : 8 ≤ n then
    let n8 := n / 8
    have : n8 < n := Nat.div_lt_self (by omega) (by decide)
    median3 lt v (median3Rec v a (a + n8 * 4) (a + n8 * 7) n8)
      (median3Rec v b (b + n8 * 4) (b + n8 * 7) n8) (median3Rec v c (c + n8 * 4) (c + n8 * 7) n8)
  else median3 lt v a b c
termination_by n

/-- The pivot: a median of three samples, at the start, the middle and seven eighths of the way. -/
def choosePivot (v : Array α) : Nat :=
  let n8 := v.size / 8
  if v.size < 64 then median3 lt v 0 (n8 * 4) (n8 * 7) else median3Rec lt v 0 (n8 * 4) (n8 * 7) n8

/-- Puts `xs` into `v` from position `start`. -/
def place (v : Array α) (start : Nat) (xs : Array α) : Array α :=
  v.extract 0 start ++ xs ++ v.extract (start + xs.size) v.size

/-- Merges the sorted stretches `v[0, mid)` and `v[mid, n)`: forward when the left one is not
longer, taking the left element unless the right one is less; otherwise backward, taking the left
element when the right one is less. -/
def merge (v : Array α) (mid : Nat) : Array α :=
  let len := v.size
  if mid = 0 ∨ len ≤ mid then v
  else if mid ≤ len - mid then forward (v.extract 0 mid).toList (v.extract mid len).toList #[]
  else backward (v.extract 0 mid).toList.reverse (v.extract mid len).toList.reverse []
where
  /-- Merges from the front; the rest of the left stretch follows what was merged. -/
  forward : List α → List α → Array α → Array α
    | l :: ls, r :: rs, out =>
      if lt r l then forward (l :: ls) rs (out.push r) else forward ls (r :: rs) (out.push l)
    | ls, rs, out => out ++ ls.toArray ++ rs.toArray
  /-- Merges from the back over reversed stretches; what is left of either comes first. -/
  backward : List α → List α → List α → Array α
    | l :: ls, r :: rs, out =>
      if lt r l then backward ls (r :: rs) (l :: out) else backward (l :: ls) rs (r :: out)
    | ls, rs, out => (ls.reverse ++ rs.reverse ++ out).toArray

/-- The length of the sorted or strictly descending stretch at the start, and whether it
descends. -/
def existingRun (v : Array α) : Nat × Bool :=
  let len := v.size
  if len < 2 then (len, false)
  else
    let descending := lt (v.getD 1 default) (v.getD 0 default)
    let continues (i : Nat) : Bool :=
      if descending then lt (v.getD i default) (v.getD (i - 1) default)
      else !lt (v.getD i default) (v.getD (i - 1) default)
    ((((List.range len).drop 2).takeWhile continues).length + 2, descending)

/-- A run of the merge: its length and whether it is sorted yet. -/
structure Run where
  length : Nat
  sorted : Bool

/-- The depth a merge node wants in the merge tree: the leading zeros of the difference of the
scaled midpoints of the two runs. -/
def mergeDepth (left mid right : Nat) (scale : UInt64) : Nat :=
  let x := scale * (left + mid).toUInt64
  let y := scale * (mid + right).toUInt64
  let d := x ^^^ y
  if d = 0 then 64 else 63 - d.toNat.log2

/-- An approximate square root: a power of two near it, improved by one Newton step. -/
def sqrtApprox (n : Nat) : Nat :=
  let shift := (1 + (n ||| 1).log2) / 2
  ((1 <<< shift) + (n >>> shift)) / 2

mutual
/-- Stable quicksort of a stretch, recursing on the right side and looping on the left. Each side
is strictly shorter than the stretch, so `fuel` at the stretch's length suffices. -/
def quicksort (p : Profile) (fuel : Nat) (v : Array α) (limit : Nat) (ancestor : Option α) :
    Option (Array α) :=
  match fuel with
  | 0 => some v
  | fuel + 1 =>
    if v.size ≤ smallLimit then smallSort lt p v
    else if limit = 0 then runMerge p fuel v true
    else
      let limit := limit - 1
      let pivotPos := choosePivot lt v
      let pivot := v.getD pivotPos default
      let equalFirst := match ancestor with
        | some a => !lt a pivot
        | none => false
      let (left, right) := if equalFirst then (#[], v) else partition lt v pivotPos false
      if equalFirst || left.isEmpty then
        let (low, high) := partition (fun x y => !lt y x) v pivotPos true
        do pure (low ++ (← quicksort p fuel high limit none))
      else do
        let right ← quicksort p fuel right limit (some pivot)
        let left ← quicksort p fuel left limit ancestor
        pure (left ++ right)

/-- Merges runs: runs already sorted in the input are kept when long enough, others are made by
small sorts (`eager`) or left for quicksort; each pair of neighbouring runs is merged when the
merge tree wants their node deeper than the next one. -/
def runMerge (p : Profile) (fuel : Nat) (v : Array α) (eager : Bool) : Option (Array α) :=
  let len := v.size
  if len < 2 then some v
  else
    let scale : UInt64 := ((1 <<< 62 : Nat) + len - 1).toUInt64 / len.toUInt64
    let minGood := if len ≤ 64 * 64 then min (len - len / 2) 64 else sqrtApprox len
    go p fuel v eager scale minGood len 0 ⟨0, true⟩ []
where
  /-- The scan over runs: `scan` is where the next run starts, `prev` the run before it, `stack`
  the runs waiting with their wanted depths, most recent first. -/
  go (p : Profile) (fuel : Nat) (v : Array α) (eager : Bool) (scale : UInt64) (minGood len : Nat) :
      Nat → Run → List (Run × Nat) → Option (Array α)
  | scan, prev, stack =>
    match fuel with
    | 0 => some v
    | fuel + 1 => do
      let (v, next, depth) ←
        if scan < len then do
          let (v, next) ← makeRun p fuel v scan eager minGood
          pure (v, next, mergeDepth (scan - prev.length) scan (scan + next.length) scale)
        else pure (v, ⟨0, true⟩, 0)
      let (v, prev, stack) ← collapse p fuel v scan depth prev stack
      let stack := (prev, depth) :: stack
      if len ≤ scan then
        if prev.sorted then pure v else quicksortAll p fuel v
      else go p fuel v eager scale minGood len (scan + next.length) next stack
  /-- Merges waiting runs into `prev` while the top one wants a node at least `depth` deep. -/
  collapse (p : Profile) (fuel : Nat) (v : Array α) (scan depth : Nat) :
      Run → List (Run × Nat) → Option (Array α × Run × List (Run × Nat))
  | prev, (left, d) :: (below :: rest) =>
    match fuel with
    | 0 => some (v, prev, (left, d) :: below :: rest)
    | fuel + 1 =>
      if depth ≤ d then do
        let start := scan - (left.length + prev.length)
        let (piece, run) ← mergeRuns p fuel (v.extract start scan) left prev
        collapse p fuel (place v start piece) scan depth run (below :: rest)
      else some (v, prev, (left, d) :: below :: rest)
  | prev, stack => some (v, prev, stack)
  /-- The run starting at `scan`: a long enough existing run (reversed if it descends), else a
  small-sorted one when `eager`, else an unsorted one. -/
  makeRun (p : Profile) (fuel : Nat) (v : Array α) (scan : Nat) (eager : Bool) (minGood : Nat) :
      Option (Array α × Run) := do
    let rest := v.extract scan v.size
    let existing := if minGood ≤ rest.size then some (existingRun lt rest) else none
    match existing with
    | some (n, descending) =>
      if minGood ≤ n then
        let piece := if descending then (rest.extract 0 n).reverse else rest.extract 0 n
        return (place v scan piece, ⟨n, true⟩)
    | none => pure ()
    if eager then
      let n := min smallLimit rest.size
      let piece ← quicksort p fuel (rest.extract 0 n) 0 none
      pure (place v scan piece, ⟨n, true⟩)
    else pure (v, ⟨min minGood rest.size, false⟩)
  /-- Merges two neighbouring runs: sorts an unsorted one first when the other is sorted; two
  unsorted runs become one unsorted run. -/
  mergeRuns (p : Profile) (fuel : Nat) (piece : Array α) (left right : Run) :
      Option (Array α × Run) := do
    if left.sorted || right.sorted then
      let l ← if left.sorted then pure (piece.extract 0 left.length)
        else quicksortAll p fuel (piece.extract 0 left.length)
      let r ← if right.sorted then pure (piece.extract left.length piece.size)
        else quicksortAll p fuel (piece.extract left.length piece.size)
      pure (merge lt (l ++ r) left.length, ⟨piece.size, true⟩)
    else pure (piece, ⟨piece.size, false⟩)
  /-- Quicksort with the limit of unbalanced splits at twice the logarithm of the length. -/
  quicksortAll (p : Profile) (fuel : Nat) (v : Array α) : Option (Array α) :=
    quicksort p fuel v (2 * (v.size ||| 1).log2) none
end

/-- Sorts stably with a strict "less than" test; `none` when the test proves inconsistent. -/
def sort (p : Profile) (xs : List α) : Option (List α) :=
  if xs.length ≤ insertionLimit then some (insertionSort lt xs)
  else
    let len := xs.length
    (runMerge lt p (8 * len + 256) xs.toArray (len ≤ smallLimit * 2)).map (·.toList)

end

/-- What a sort that finds its order test inconsistent reports. -/
def inconsistentOrder : String :=
  "user-provided comparison function does not correctly implement a total order"

end Sorting

end GameVault
