import TagStore.Wire.Stream
import TagStore.Text.Utf8

/-!
# Watching the traffic

A record of the bytes that pass over a connection, in either direction, and its form in a log.
-/

namespace TagStore

/-- Whether bytes leave or arrive. -/
inductive Direction
  | outbound
  | inbound
deriving Repr, DecidableEq

/-- Bytes that passed to or from a peer. -/
structure Traffic where
  direction : Direction
  peer : String
  data : Bytes
deriving Repr, DecidableEq

/-- A state, and the traffic that was seen on it, the latest first. -/
structure Watched (σ : Type) where
  state : σ
  seen : List Traffic

/-- Puts bytes that pass on record. Without a peer nobody watches, and passing no bytes is no
traffic. -/
def Traffic.record (peer : Option String) (d : Direction) (b : Bytes) (seen : List Traffic) :
    List Traffic :=
  match peer, b with
  | none, _ => seen
  | some _, [] => seen
  | some peer, b :: bs => ⟨d, peer, b :: bs⟩ :: seen

/-- A source whose bytes are put on record as they arrive. -/
def Source.watched {σ : Type} (src : Source σ) (peer : Option String) : Source (Watched σ) where
  read n w :=
    match src.read n w.state with
    | (.bytes b, s) => (.bytes b, ⟨s, Traffic.record peer .inbound b w.seen⟩)
    | (.failed e, s) => (.failed e, ⟨s, w.seen⟩)
    | (.nothing, s) => (.nothing, ⟨s, w.seen⟩)
  limit := src.limit
  budget w := src.budget w.state
  read_budget n w := by
    have := src.read_budget n w.state
    split <;> simp_all
  bytes_budget n w b h := by
    have := src.bytes_budget n w.state
    split at h <;> simp_all

/-- What passed to each peer or from it, neighbouring bytes of one peer put together. -/
def Traffic.joined : List Traffic → List (String × Bytes)
  | [] => []
  | t :: r =>
    match joined r with
    | (peer, b) :: rest =>
      if peer = t.peer then (peer, t.data ++ b) :: rest else (t.peer, t.data) :: (peer, b) :: rest
    | [] => [(t.peer, t.data)]

/-- How bytes appear in a log. -/
inductive TapFormat
  | text
  | hex
deriving Repr, DecidableEq

/-- The bytes in a format. -/
def TapFormat.render : TapFormat → Bytes → String
  | text, b => Utf8.lossy b
  | hex, b => Bytes.toHex b

/-- One entry of a log. -/
structure LogEvent where
  target : String
  level : String
  message : String
  peer : String
  length : Nat
  data : String
deriving Repr, DecidableEq

/-- The mark of a direction. -/
def Direction.mark : Direction → String
  | outbound => ">>"
  | inbound => "<<"

/-- The entry that reports traffic. -/
def Traffic.event (format : TapFormat) (t : Traffic) : LogEvent where
  target := "okuyama::wire"
  level := "TRACE"
  message := t.direction.mark
  peer := t.peer
  length := t.data.length
  data := format.render t.data

end TagStore
