import TagStore.Config
import TagStore.Text.Search
import TagStore.Wire.Error

/-!
# Client errors

Why an operation of a client fails. A failure of the connection belongs to one of two stages: as
long as the request is being sent the server has not acted on it; later it may have.
-/

namespace TagStore

/-- The part of an exchange in which a connection fails. -/
inductive Stage
  | request
  | response
deriving Repr, DecidableEq

/-- What goes on in a stage. -/
def Stage.text : Stage → String
  | request => "sending request"
  | response => "reading response"

/-- What a server objects to. -/
inductive FailureKind
  | keyTooLong
  | valueTooLarge
  | alreadyExists
  | rejected
deriving Repr, DecidableEq

namespace FailureKind

/-- How a server starts to say that a key is taken. -/
def alreadyExistsStart : String := "NG:Data has already"

/-- What a server's words say; a taken key comes before a long key, and that before a large
value. -/
def classify (text : String) : FailureKind :=
  if Text.starts alreadyExistsStart text then alreadyExists
  else if Text.holds "Key Length" text then keyTooLong
  else if Text.holds "Max Data Size Over" text || Text.holds "Value Length" text then valueTooLarge
  else rejected

/-- The text of a kind. -/
def text : FailureKind → String
  | keyTooLong => "key too long"
  | valueTooLarge => "value too large"
  | alreadyExists => "already exists"
  | rejected => "rejected"

end FailureKind

/-- Why an operation of a client fails. -/
inductive ClientError
  | config (e : ConfigError)
  | invalidArgument (detail : String)
  | noAvailableEndpoint (attempts : Nat) (lastError : String)
  | io (stage : Stage) (e : IoError)
  | timeout (stage : Stage) (limit : Duration)
  | protocol (e : ProtocolError)
  | operation (kind : FailureKind) (text : String)
  | versionConflict (text : String)
deriving Repr, DecidableEq

/-- What an error is about. -/
inductive ErrorKind
  | config
  | invalidArgument
  | connectivity
  | io
  | protocol
  | operation
  | versionConflict
deriving Repr, DecidableEq

namespace ClientError

/-- The sentence that reports an error. -/
def message : ClientError → String
  | config e => s!"configuration error: {e.message}"
  | invalidArgument detail => s!"invalid argument: {detail}"
  | noAvailableEndpoint attempts lastError =>
    s!"no endpoint reachable after {attempts} attempt(s): {lastError}"
  | io stage e => s!"I/O error while {stage.text}: {e.text}"
  | timeout stage limit => s!"timed out after {limit.text} while {stage.text}"
  | protocol e => s!"protocol error: {e.message}"
  | operation kind text => s!"operation failed ({kind.text}): {text}"
  | versionConflict text => s!"version conflict: {text}"

/-- What an error is about. -/
def kind : ClientError → ErrorKind
  | config _ => .config
  | invalidArgument _ => .invalidArgument
  | noAvailableEndpoint _ _ => .connectivity
  | io _ _ | timeout _ _ => .io
  | protocol _ => .protocol
  | operation _ _ => .operation
  | versionConflict _ => .versionConflict

/-- The stage in which the connection failed, if it did. -/
def stage : ClientError → Option Stage
  | io s _ | timeout s _ => some s
  | _ => none

/-- Whether another attempt on another connection may fare better. -/
def isTransient (e : ClientError) : Bool := e.kind = .io

/-- Whether the server may have done what it was asked in spite of the error. -/
def isAmbiguous (e : ClientError) : Bool := e.stage = some .response

/-- The error of a stage of an exchange. -/
def ofProtocol (stage : Stage) : ProtocolError → ClientError
  | .io e => io stage e
  | .timeout limit => timeout stage limit
  | e => protocol e

/-- The error that a server reports in its own words. -/
def ofServer (text : String) : ClientError := operation (.classify text) text

end ClientError

end TagStore
