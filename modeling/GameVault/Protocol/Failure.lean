import GameVault.Protocol.Message
import GameVault.Store.Basic

namespace GameVault

/-- Why a request or one of its steps has no answer. -/
inductive Failure where
  /-- The request itself is malformed. -/
  | badInput (message : String)
  | codec (e : CodecError)
  | driver (e : DriverError)
  | store (e : StoreError)
  /-- A setup step that gives up, with its report. -/
  | panic (message : String)
  /-- A request that gives up as a whole, with its report. -/
  | abort (message : String)

/-- An error record. -/
def Message.error (kind message : String) : Message :=
  .obj [("error", .str kind), ("message", .str message)]

/-- The error record of a failure. A sort that gave up ends the step as a panic, whichever layer
it reached the step through. -/
def Failure.toMessage : Failure → Message
  | .badInput m => .error "BadInput" m
  | .codec e => .error ("Codec." ++ e.kind) e.message
  | .driver .inconsistentOrder => .error "Panic" DriverError.inconsistentOrder.message
  | .driver e => .error ("Driver." ++ e.kind) e.message
  | .store (.driver .inconsistentOrder) => .error "Panic" DriverError.inconsistentOrder.message
  | .store e => .error ("Core." ++ e.kind) e.message
  | .panic m => .error "Panic" m
  | .abort m => .error "Panic" m

/-- Whether a failure ends the whole request instead of one step of a session: a request that gave
up, or a sort that gave up, whichever layer it reached the step through. -/
def Failure.endsRequest : Failure → Bool
  | .abort _ => true
  | .driver .inconsistentOrder => true
  | .store (.driver .inconsistentOrder) => true
  | _ => false

/-- A result of the protocol. -/
abbrev Outcome := Except Failure

def Outcome.bad {α : Type} (message : String) : Outcome α := .error (.badInput message)

def Outcome.ofCodec {α : Type} (r : Except CodecError α) : Outcome α := r.mapError .codec

def Outcome.ofDriver {α : Type} (r : Except DriverError α) : Outcome α := r.mapError .driver

def Outcome.ofStore {α : Type} (r : Except StoreError α) : Outcome α := r.mapError .store

/-- The answer of an outcome, a failure written as its error record. -/
def Outcome.toMessage (r : Outcome Message) : Message :=
  match r with
  | .ok m => m
  | .error f => f.toMessage

end GameVault
