import GameVault.Protocol.Documents
import GameVault.Protocol.Queries
import GameVault.Protocol.Entities
import GameVault.Protocol.Session.Run
import GameVault.Json.Read
import GameVault.Json.Write

namespace GameVault

namespace Protocol

open Outcome

/-- The outcome of a request. -/
def respond (r : Message) : Outcome Message := do
  let op ← req r "op" text
  match documentOp op r <|> queryOp op r <|> entityOp op r <|> sessionOp op r with
  | some outcome => outcome
  | none => bad ("unknown op " ++ quoted op)

def answer (r : Message) : Message := (respond r).toMessage

/-- The answer to one request line: the line read as JSON and answered, or a malformed-request
record naming the reading error. -/
def answerLine (line : String) : String :=
  match Json.read line with
  | .ok r => Json.write (answer r)
  | .error e => Json.write (.error "BadInput" (e.describe line))

end Protocol

end GameVault
