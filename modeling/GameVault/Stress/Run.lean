import GameVault.Store.Writes
import GameVault.Double.Round

namespace GameVault

open Database

/-- The shape of a stress run. -/
structure StressConfig where
  actors : Nat := 8
  ticks : Nat := 200
  /-- Ticks between two changes of an actor's role; zero counts as one. -/
  mutateEvery : Nat := 4
  deriving Inhabited

/-- Changes per actor: the ticks that are multiples of the change period. -/
def StressConfig.expectedSavesPerActor (c : StressConfig) : Nat :=
  let every := max c.mutateEvery 1
  (c.ticks + every - 1) / every

/-- Outcomes of a run's updates. -/
structure StressTally where
  saved : Nat := 0
  skipped : Nat := 0
  failed : Nat := 0
  deriving Inhabited, DecidableEq

/-- A duration in seconds and nanoseconds; nanoseconds of a full second carry into the seconds. -/
structure Duration where
  secs : Nat
  nanos : Nat
  deriving DecidableEq

/-- Normalizes seconds and nanoseconds; nothing when the seconds, with the carry, pass the 64-bit
range. -/
def Duration.ofParts (secs nanos : Nat) : Option Duration :=
  let total := secs + nanos / 1000000000
  if total ≤ 18446744073709551615 then some ⟨total, nanos % 1000000000⟩ else none

/-- The duration in seconds as a double: the seconds plus the nanoseconds over a billion. -/
def Duration.seconds (d : Duration) : Double :=
  Double.add (Double.ofNat d.secs) (Double.div (Double.ofNat d.nanos) (Double.ofNat 1000000000))

/-- The summary of a run. -/
structure StressReport where
  totalOps : Nat
  savedOps : Nat
  skippedOps : Nat
  failedOps : Nat
  opsPerSecond : Double

/-- Summarizes a tally over a duration. The total is counted in a 64-bit word, so it wraps. -/
def StressReport.of (t : StressTally) (d : Duration) : StressReport :=
  let total := (t.saved + t.skipped + t.failed) % 18446744073709551616
  let secs := d.seconds
  ⟨total, t.saved, t.skipped, t.failed,
    if secs.isPositive then Double.div (Double.ofNat total) secs else Double.zero⟩

namespace Stress

/-- The level after a change: one more, wrapping like a 32-bit word. -/
def levelUp : Body → Body
  | .role name level gold => .role name (level + 1) gold
  | b => b

/-- Renames a role. -/
def rename (name : String) : Body → Body
  | .role _ level gold => .role name level gold
  | b => b

/-- The id of actor `n`'s role: its number plus one. -/
def actorId (n : Nat) : Int64 := Int64.ofNat (n + 1)

/-- The name an actor gives its role. -/
def actorName (id : Int64) : String := "actor-" ++ toString id.toInt

/-- One tick of an actor: on a tick that is a multiple of the change period it raises its role's
level, then it updates the role and counts the outcome. A failed update leaves the role as the
actor had it. -/
def tick (every : Nat) (role : Entity) (t : StressTally) (i : Nat) :
    StateM (Store × World) (Entity × StressTally) := do
  let role := if i % every = 0 then { role with body := levelUp role.body } else role
  match ← (Store.update role).run with
  | .ok (.saved, role') => pure (role', { t with saved := t.saved + 1 })
  | .ok (.unchanged, role') => pure (role', { t with skipped := t.skipped + 1 })
  | .ok (.unacknowledged, role') => pure (role', { t with failed := t.failed + 1 })
  | .error _ => pure (role, { t with failed := t.failed + 1 })

/-- Where an actor stands between two of its store calls, as its task waits at each of them: before
its load, before the add of its renamed role, on its ticks with those still to run, or stopped after
a failed load or add. -/
inductive Stage where
  | load
  | add (role : Entity)
  | ticking (role : Entity) (rest : List Nat)
  | stopped

/-- Actor `n`'s next store call from a stage, with the counts it adds to. An actor whose load or
add fails counts all its ticks as failed and stops; an actor with nothing left to do makes no
call. -/
def advance (c : StressConfig) (n : Nat) (stage : Stage) (t : StressTally) :
    StateM (Store × World) (Stage × StressTally) :=
  match stage with
  | .load => do
    match ← (Store.load .role (actorId n) none).run with
    | .error _ => pure (.stopped, { t with failed := t.failed + c.ticks })
    | .ok role => pure (.add { role with body := rename (actorName (actorId n)) role.body }, t)
  | .add role => do
    match ← (Store.add role).run with
    | .error _ => pure (.stopped, { t with failed := t.failed + c.ticks })
    | .ok (_, role') => pure (.ticking role' (List.range c.ticks), t)
  | .ticking role (i :: rest) => do
    let (role', t') ← tick (max c.mutateEvery 1) role t i
    pure (.ticking role' rest, t')
  | .ticking role [] => pure (.ticking role [], t)
  | .stopped => pure (.stopped, t)

/-- Actor `n` making `k` store calls in a row. -/
def calls (c : StressConfig) (n : Nat) : Nat → Stage → StressTally →
    StateM (Store × World) (Stage × StressTally)
  | 0, stage, t => pure (stage, t)
  | k + 1, stage, t => do
    let (stage', t') ← advance c n stage t
    calls c n k stage' t'

/-- Runs one actor: its load, its add and one call per tick. -/
def actor (c : StressConfig) (t : StressTally) (n : Nat) : StateM (Store × World) StressTally := do
  return (← calls c n (c.ticks + 2) .load t).2

def run (c : StressConfig) : StateM (Store × World) StressTally :=
  (List.range c.actors).foldlM (actor c) {}

/-- Where every actor stands, and the counts they share. -/
structure Progress where
  stages : Nat → Stage
  tally : StressTally

def Progress.start : Progress := ⟨fun _ => .load, {}⟩

/-- Records actor `n`'s stage and the counts after one of its calls. -/
def Progress.next (p : Progress) (n : Nat) (stage : Stage) (t : StressTally) : Progress :=
  ⟨fun m => if m = n then stage else p.stages m, t⟩

/-- The actors as concurrent tasks over one store, each store call atomic: the calls run in the order
a schedule gives, each entry letting the actor it names make its next call. -/
def interleave (c : StressConfig) : List Nat → Progress → StateM (Store × World) Progress
  | [], p => pure p
  | n :: rest, p => do
    let (stage, t) ← advance c n (p.stages n) p.tally
    interleave c rest (p.next n stage t)

/-- The schedule of a run in turn: each actor makes all its calls, one actor after another. -/
def inTurn (c : StressConfig) : List Nat :=
  (List.range c.actors).flatMap fun n => List.replicate (c.ticks + 2) n

end Stress

end GameVault
