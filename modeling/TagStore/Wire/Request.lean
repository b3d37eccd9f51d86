import TagStore.Wire.Opcode
import TagStore.Wire.Field
import TagStore.Wire.Error
import TagStore.Wire.Tap

/-!
# Requests

A request is one line: the number of its operation, then each field behind a separator. It is
written in as many parts as the stream takes, and counts as sent once the stream is flushed; only
then is it put on record, and in one piece.
-/

namespace TagStore

open Wire

/-- A request, as an operation and its fields. -/
structure Request where
  opcode : Opcode
  fields : List Field
deriving Repr, DecidableEq

namespace Request

/-- The line of a request. -/
def line (r : Request) : Bytes :=
  digits r.opcode.code ++ r.fields.flatMap (fun f => fieldSeparator :: f.bytes) ++ [lineEnd]

/-- Offers bytes to a sink until it has taken all of them. -/
def writeAll {σ : Type} (sink : Sink σ) (limit : Option Duration) (b : Bytes) (s : σ) :
    Except ProtocolError Unit × σ :=
  match b with
  | [] => (.ok (), s)
  | x :: xs =>
    match sink.write (x :: xs) s with
    | (.accepted 0, s) => (.error (.io ⟨.writeZero, "write zero"⟩), s)
    | (.accepted (n + 1), s) => writeAll sink limit (xs.drop n) s
    | (.failed e, s) => (.error (.io e), s)
    | (.nothing, s) => (.error (.ofSilence limit), s)
termination_by b.length
decreasing_by
  rw [List.length_drop, List.length_cons]
  omega

/-- Writes the line of a request and flushes the sink. -/
def send {σ : Type} (r : Request) (sink : Sink σ) (limit : Option Duration) (s : σ) :
    Except ProtocolError Unit × σ :=
  match writeAll sink limit r.line s with
  | (.error e, s) => (.error e, s)
  | (.ok (), s) =>
    match sink.flush s with
    | (.done, s) => (.ok (), s)
    | (.failed e, s) => (.error (.io e), s)
    | (.nothing, s) => (.error (.ofSilence limit), s)

/-- Sends a request, and puts its line on record if it is sent. -/
def sendWatched {σ : Type} (r : Request) (sink : Sink σ) (limit : Option Duration)
    (peer : Option String) (w : Watched σ) : Except ProtocolError Unit × Watched σ :=
  match r.send sink limit w.state with
  | (.ok (), s) => (.ok (), ⟨s, Traffic.record peer .outbound r.line w.seen⟩)
  | (.error e, s) => (.error e, ⟨s, w.seen⟩)

end Request

end TagStore
