import GameVault.Protocol.Session.Raw
import GameVault.Protocol.Session.Stores

namespace GameVault

namespace Protocol

open Outcome

/-- Runs one step; a failure is answered as its error record, unless it ends the whole request. -/
def runStep (r : Message) : Step Message :=
  tryCatch
    (do
      let name ← reading (req r "do" text)
      match rawStep name r <|> variableStep name r <|> storeStep name r with
      | some s => s
      | none => refuse ("unknown step " ++ quoted name))
    (fun f => if f.endsRequest then throw f else pure f.toMessage)

/-- Runs steps in order from a session, stopping at a failure that ends the request. -/
def runSteps (steps : List Message) : Step (List Message) :=
  steps.mapM runStep

/-- The summary of a stress run. -/
def stressReportMessage (s : StressReport) : Message :=
  .obj [("total_ops", .nat s.totalOps), ("saved_ops", .nat s.savedOps),
    ("skipped_ops", .nat s.skippedOps), ("failed_ops", .nat s.failedOps),
    ("ops_per_second", floatMessage s.opsPerSecond)]

/-- Answers a session or stress request, if `op` names one. -/
def sessionOp (op : String) (r : Message) : Option (Outcome Message) :=
  match op with
  | "stress_config" => some do
    let c : StressConfig := {
      actors := ← optD r "actors" u64 8, ticks := ← optD r "ticks" u64 200,
      mutateEvery := ← optD r "mutate_every" u64 4 }
    pure (.obj [("actors", .nat c.actors), ("ticks", .nat c.ticks), ("mutate_every", .nat c.mutateEvery),
      ("expected_saves_per_actor", .nat c.expectedSavesPerActor)])
  | "stress_result" => some do
    let secs ← req r "secs" u64
    let nanos ← req r "nanos" u64
    if nanos > 4294967295 then bad "nanos must be a u32"
    let t : StressTally := {
      saved := ← req r "saved" u64, skipped := ← req r "skipped" u64, failed := ← req r "failed" u64 }
    match Duration.ofParts secs nanos with
    | some d => pure (stressReportMessage (StressReport.of t d))
    | none => throw (.abort "overflow in Duration::new")
  | "session" => some do
    let steps ← req r "steps" sequence
    pure (.obj [("steps", .arr (← ((runSteps steps).run.run Session.start).1))])
  | _ => none

end Protocol

end GameVault
