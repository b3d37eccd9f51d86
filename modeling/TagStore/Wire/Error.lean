import TagStore.Wire.Stream
import TagStore.Compression.Error
import TagStore.Text.Utf8
import TagStore.Text.Quoted

/-!
# Protocol errors

Why sending a request or reading a reply fails, with the sentence that reports each cause.
-/

namespace TagStore

/-- Why an object cannot be written or read. -/
inductive ObjectError
  | missingMagic
  | notAnObject
  | json (detail : String)
deriving Repr, DecidableEq

/-- The sentence that reports an error. -/
def ObjectError.message : ObjectError → String
  | missingMagic => "serialized object does not start with [AC ED]"
  | notAnObject => "value is raw bytes, not an object"
  | json detail => s!"JSON: {detail}"

/-- Why sending or reading a line fails. `blocked` stands for a call that never returns, because
the stream stays silent and no limit is set. -/
inductive ProtocolError
  | io (e : IoError)
  | timeout (limit : Duration)
  | format (detail : String)
  | unexpectedOpcode (expected actual : Nat)
  | unexpectedStatus (field : String)
  | base64
  | utf8 (f : Utf8.Fault)
  | compression (e : CompressionError)
  | objectCodec (e : ObjectError)
  | blocked
deriving Repr, DecidableEq

namespace ProtocolError

/-- The sentence that reports an error. -/
def message : ProtocolError → String
  | io e => s!"I/O error: {e.text}"
  | timeout limit => s!"timed out after {limit.text}"
  | format detail => s!"malformed response: {detail}"
  | unexpectedOpcode expected actual =>
    s!"unexpected opcode in response: expected {expected}, got {actual}"
  | unexpectedStatus field => s!"unexpected status field: {Text.quote field}"
  | base64 => "invalid Base64 field"
  | utf8 f => s!"invalid UTF-8 field: {f.message}"
  | compression e => s!"payload compression: {e.message}"
  | objectCodec e => s!"object codec: {e.message}"
  | blocked => "no answer, and no limit to wait for it"

/-- Whether a failure lies with the connection and not with what it carried. -/
def isTransient : ProtocolError → Bool
  | io _ | timeout _ => true
  | _ => false

/-- The error of a stream that stays silent. -/
def ofSilence : Option Duration → ProtocolError
  | some limit => timeout limit
  | none => blocked

end ProtocolError

end TagStore
