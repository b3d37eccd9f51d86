import TagStore.Text.Decimal
import TagStore.Text.Quoted
import TagStore.Text.Split

/-!
# Endpoints

The address of a master node: a host and a port, divided by the last colon of its text.
-/

namespace TagStore

/-- Where a master node listens. -/
structure Endpoint where
  host : String
  port : Nat
deriving Repr, DecidableEq

namespace Endpoint

/-- Why a text is no address. -/
inductive Fault
  | noColon
  | emptyHost
  | badHost
  | badPort
  | greatPort
deriving Repr, DecidableEq

/-- The reason that reports a fault. -/
def Fault.message : Fault → String
  | noColon => "expected host:port"
  | emptyHost => "host is empty"
  | badHost => "host may only contain letters, digits, '.' and '-'"
  | badPort => "port is not a number"
  | greatPort => "port must be between 0 and 65535"

/-- Whether a character may stand in a host. -/
def isHostChar (c : Char) : Bool :=
  ('a' ≤ c && c ≤ 'z') || ('A' ≤ c && c ≤ 'Z') || Text.isDigit c || c == '.' || c == '-'

/-- The address that a text writes, white space around it left out. -/
def read (s : String) : Except Fault Endpoint :=
  match Text.splitLast? ':' (Text.trimChars s.toList) with
  | none => .error .noColon
  | some ([], _) => .error .emptyHost
  | some (host, port) =>
    if !host.all isHostChar then .error .badHost
    else if port.isEmpty || !port.all Text.isDigit then .error .badPort
    else match Text.digitsFrom Text.maxU16 0 port with
      | some n => .ok ⟨String.ofList host, n⟩
      | none => .error .greatPort

/-- The text of an address. -/
def address (e : Endpoint) : String := s!"{e.host}:{e.port}"

end Endpoint

end TagStore
