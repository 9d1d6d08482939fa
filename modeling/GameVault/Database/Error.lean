import GameVault.Cbor.Error
import GameVault.Sorting.Hybrid

namespace GameVault

/-- The record form of a codec error: its cause followed by its fields, if any. -/
def CodecError.diagnostic : CodecError → String
  | .serializeFailed r =>
    Quoted.record "SerializeFailed" [("message", Quoted.quote ("Custom(" ++ Quoted.quote r ++ ")"))]
  | .deserializeFailed f =>
    Quoted.record "DeserializeFailed"
      [("message", Quoted.quote ("Custom(" ++ Quoted.quote f.message ++ ")"))]
  | .nanForbidden => "NaNForbidden"
  | .floatWidth => "FloatWidth"
  | .indefiniteLength => "IndefiniteLengthForbidden"
  | .invalidUtf8 => "InvalidUtf8"
  | .unexpectedEof => "UnexpectedEof"
  | .invalidStructure f => Quoted.record "InvalidStructure" [("message", Quoted.quote f.message)]
  | .unsupportedType u => Quoted.record "UnsupportedType" [("type_name", Quoted.quote u.message)]
  | .integerOverflow => "IntegerOverflow"
  | .sizeLimitExceeded c m =>
    Quoted.record "SizeLimitExceeded" [("claimed", toString c), ("max_allowed", toString m)]

/-- Why a database operation failed. -/
inductive DriverError where
  /-- A connection string or database name was refused. -/
  | connectionFailed (message : String)
  /-- The connection was closed. -/
  | closed
  /-- A document with this id is already stored. -/
  | duplicateKey (collection : String) (id : Int64)
  /-- A document has no integer `id`. -/
  | missingId (collection : String)
  | invalidDocument (message : String)
  | indexExists (name : String)
  | indexNotFound (name : String)
  /-- A collection name that the database refuses. -/
  | invalidName (name : String)
  | collectionNotFound (name : String)
  /-- A document could not be encoded. -/
  | codec (e : CodecError)
  /-- A sort found the order of its keys inconsistent and gave up; the request step ends there. -/
  | inconsistentOrder

namespace DriverError

/-- The wording of a database error. -/
def message : DriverError → String
  | .connectionFailed m => "connection failed: " ++ m
  | .closed => "driver is closed"
  | .duplicateKey c id => "duplicate key: collection " ++ c ++ ", id " ++ toString id.toInt
  | .missingId c => "document in collection " ++ c ++ " has no integer id"
  | .invalidDocument m => "invalid document: " ++ m
  | .indexExists n => "index already exists: " ++ n
  | .indexNotFound n => "index not found: " ++ n
  | .invalidName n => "invalid collection name: " ++ Quoted.quote n
  | .collectionNotFound n => "collection not found: " ++ n
  | .codec e => "codec error: " ++ e.message
  | .inconsistentOrder => Sorting.inconsistentOrder

/-- The cause of a database error as a dotted path. -/
def kind : DriverError → String
  | .connectionFailed _ => "ConnectionFailed"
  | .closed => "Closed"
  | .duplicateKey _ _ => "DuplicateKey"
  | .missingId _ => "MissingId"
  | .invalidDocument _ => "InvalidDocument"
  | .indexExists _ => "IndexExists"
  | .indexNotFound _ => "IndexNotFound"
  | .invalidName _ => "InvalidName"
  | .collectionNotFound _ => "CollectionNotFound"
  | .codec e => "Codec." ++ e.kind
  | .inconsistentOrder => "InconsistentOrder"

/-- The record form of a database error. -/
def diagnostic : DriverError → String
  | .connectionFailed m => Quoted.record "ConnectionFailed" [("message", Quoted.quote m)]
  | .closed => "Closed"
  | .duplicateKey c id =>
    Quoted.record "DuplicateKey" [("collection", Quoted.quote c), ("id", toString id.toInt)]
  | .missingId c => Quoted.record "MissingId" [("collection", Quoted.quote c)]
  | .invalidDocument m => Quoted.record "InvalidDocument" [("message", Quoted.quote m)]
  | .indexExists n => Quoted.record "IndexExists" [("name", Quoted.quote n)]
  | .indexNotFound n => Quoted.record "IndexNotFound" [("name", Quoted.quote n)]
  | .invalidName n => Quoted.record "InvalidName" [("name", Quoted.quote n)]
  | .collectionNotFound n => Quoted.record "CollectionNotFound" [("name", Quoted.quote n)]
  | .codec e => "Codec(" ++ e.diagnostic ++ ")"
  | .inconsistentOrder => "InconsistentOrder"

/-- Whether the error says the connection is closed. -/
def isClosed : DriverError → Bool
  | .closed => true
  | _ => false

end DriverError

end GameVault
