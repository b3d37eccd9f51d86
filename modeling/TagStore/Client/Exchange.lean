import TagStore.Client.Pool
import TagStore.Client.Replying
import TagStore.Client.Retry

/-!
# Exchanges

A request, how its reply is read, and after which failures it may be sent once more. Each attempt
has a connection to itself. Where the reply was read to its end the connection may be kept; in all
other cases it is closed, whatever is still to come on it.
-/

namespace TagStore

/-- A request and its reply. -/
structure Exchange (α : Type) where
  request : Request
  mode : RetryMode
  reply : {σ : Type} → Source σ → Replying σ α

namespace Exchange

variable {ω α : Type}

/-- Sends the request over a connection and reads the reply. -/
def onConnection (net : Network ω) (x : Exchange α) (c : Connection) (p : Pool ω) :
    Except ClientError α × Pool ω :=
  match p.send net c x.request with
  | (.error e, p) => (.error (.ofProtocol .request e), p.destroy net c)
  | (.ok (), p) =>
    match p.receive net c fun src r => x.reply src r with
    | (.ok a, c, p) => (.ok a, p.recycle net c)
    | (.error e, c, p) => (.error e, p.destroy net c)

/-- One attempt, with a connection of the pool. -/
def attempt (net : Network ω) (x : Exchange α) (p : Pool ω) : Except ClientError α × Pool ω :=
  match p.acquire net with
  | (.error e, p) => (.error e, p)
  | (.ok c, p) => x.onConnection net c p

/-- The exchange, with a second attempt where the first allows it. -/
def run (net : Network ω) (x : Exchange α) (p : Pool ω) : Except ClientError α × Pool ω :=
  x.mode.retryOnce (x.attempt net) p

end Exchange

end TagStore
