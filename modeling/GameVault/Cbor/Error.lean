import GameVault.Schema.Fault

namespace GameVault

/-- Ways a byte string breaks the structure of canonical CBOR. -/
inductive Malformed where
  | duplicateKey
  | keysUnsorted
  | overlongArgument
  | reservedInfo
  | strayBreak
  | trailingBytes
  deriving DecidableEq

/-- The wording of a structural fault. -/
def Malformed.message : Malformed → String
  | .duplicateKey => "duplicate map key"
  | .keysUnsorted => "non-canonical: map keys not in sorted order"
  | .overlongArgument => "non-canonical: value could be encoded in fewer bytes"
  | .reservedInfo => "reserved additional info"
  | .strayBreak => "break without indefinite"
  | .trailingBytes => "trailing bytes after value"

/-- Kinds of CBOR items that documents do not have. -/
inductive Unsupported where
  /-- A tagged item met while reading bytes. -/
  | tagged
  /-- A tag met while converting an item model. -/
  | tag (n : Nat)
  /-- A simple value other than false, true, null and the double width. -/
  | simple (info : Nat)
  deriving DecidableEq

/-- The wording of an unsupported kind. -/
def Unsupported.message : Unsupported → String
  | .tagged => "tagged value"
  | .tag n => "tag " ++ toString n
  | .simple info => "simple value " ++ toString info

/-- Errors of encoding, decoding and converting documents. -/
inductive CodecError where
  /-- A value refused to be written; the text is its own reason. -/
  | serializeFailed (reason : String)
  /-- A document does not fit the record type it is read as. -/
  | deserializeFailed (fault : SchemaFault)
  | nanForbidden
  | floatWidth
  | indefiniteLength
  | invalidUtf8
  | unexpectedEof
  | invalidStructure (fault : Malformed)
  | unsupportedType (what : Unsupported)
  | integerOverflow
  | sizeLimitExceeded (claimed maxAllowed : Nat)

/-- The wording of a codec error. A reason or schema fault is shown as a quoted custom reason. -/
def CodecError.message : CodecError → String
  | .serializeFailed r => "serialization failed: Custom(" ++ Quoted.quote r ++ ")"
  | .deserializeFailed f => "deserialization failed: Custom(" ++ Quoted.quote f.message ++ ")"
  | .nanForbidden => "NaN values are forbidden"
  | .floatWidth => "non-canonical float width: only 64-bit floats are accepted"
  | .indefiniteLength => "indefinite-length items are forbidden"
  | .invalidUtf8 => "invalid UTF-8 string"
  | .unexpectedEof => "unexpected end of input"
  | .invalidStructure f => "invalid CBOR structure: " ++ f.message
  | .unsupportedType u => "unsupported CBOR type: " ++ u.message
  | .integerOverflow => "integer overflow"
  | .sizeLimitExceeded c m =>
    "size limit exceeded: claimed " ++ toString c ++ ", max allowed " ++ toString m

/-- Name of a codec error's cause. -/
def CodecError.kind : CodecError → String
  | .serializeFailed _ => "SerializeFailed"
  | .deserializeFailed _ => "DeserializeFailed"
  | .nanForbidden => "NaNForbidden"
  | .floatWidth => "FloatWidth"
  | .indefiniteLength => "IndefiniteLengthForbidden"
  | .invalidUtf8 => "InvalidUtf8"
  | .unexpectedEof => "UnexpectedEof"
  | .invalidStructure _ => "InvalidStructure"
  | .unsupportedType _ => "UnsupportedType"
  | .integerOverflow => "IntegerOverflow"
  | .sizeLimitExceeded _ _ => "SizeLimitExceeded"

end GameVault
