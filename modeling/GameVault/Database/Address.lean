import GameVault.Database.Error

namespace GameVault

namespace Database

/-- The scheme that every connection string starts with. -/
def scheme : String := "memory://"

/-- Where a connection goes and whether its writes are acknowledged. -/
structure Address where
  host : String
  acknowledged : Bool
  deriving DecidableEq, Inhabited

/-- Splits a list at the first element equal to `c`, dropping it. -/
def splitAtFirst (c : Char) : List Char → Option (List Char × List Char)
  | [] => none
  | x :: xs =>
    if x = c then some ([], xs)
    else (splitAtFirst c xs).map fun (before, after) => (x :: before, after)

/-- Drops every trailing `/`. -/
def trimTrailingSlashes (s : String) : String :=
  String.ofList (s.toList.reverse.dropWhile (· = '/')).reverse

/-- Reads the options after `?`, from an acknowledged start: each `w=level` sets the
acknowledgement, the last one winning; empty options are skipped; anything else is refused. -/
def readOptions (acknowledged : Bool) : List String → Except DriverError Bool
  | [] => .ok acknowledged
  | pair :: rest =>
    if pair.isEmpty then readOptions acknowledged rest
    else
      match splitAtFirst '=' pair.toList with
      | some (['w'], level) => readOptions (String.ofList level != "0") rest
      | _ => .error (.connectionFailed ("unknown connection option " ++ Quoted.quote pair))

/-- Reads a connection string. -/
def Address.parse (cs : String) : Except DriverError Address :=
  if scheme.isPrefixOf cs then
    let rest := (cs.toList.drop scheme.length)
    let (host, query) := (splitAtFirst '?' rest).getD (rest, [])
    match readOptions true ((String.ofList query).splitOn "&") with
    | .ok ack => .ok ⟨trimTrailingSlashes (String.ofList host), ack⟩
    | .error e => .error e
  else
    .error (.connectionFailed ("unsupported connection string " ++ Quoted.quote cs ++
      ", expected " ++ scheme ++ "<host>"))

def forbiddenInName : List Char := ['/', '\\', '.', ' ', '"', '$', '\x00']

/-- Refuses an empty database name or one holding a forbidden character. -/
def checkDatabaseName (name : String) : Except DriverError Unit :=
  if name.isEmpty || name.toList.any (forbiddenInName.contains ·) then
    .error (.connectionFailed ("invalid database name " ++ Quoted.quote name))
  else .ok ()

end Database

end GameVault
