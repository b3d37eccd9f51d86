import TagStore.Duration
import TagStore.Bytes

/-!
# Streams

What a reader and a writer need of a connection, as functions on a state of its own. `Source` gives
what one read brings; `Sink` takes what one write offers. A source never brings more than its
budget of bytes, so every reader comes to an end. Either may stay silent for longer than anyone
waits.
-/

namespace TagStore

/-- A kind of failure below the lines. -/
inductive IoKind
  | unexpectedEof
  | writeZero
  | brokenPipe
  | connectionReset
  | connectionAborted
  | connectionRefused
  | networkUnreachable
  | timedOut
  | other
deriving Repr, DecidableEq

/-- A failure below the lines. -/
structure IoError where
  kind : IoKind
  text : String
deriving Repr, DecidableEq

/-- What one read brings; no bytes mean that the stream has ended. -/
inductive Received
  | bytes (b : Bytes)
  | failed (e : IoError)
  | nothing
deriving Repr, DecidableEq

/-- A stream to read from. -/
structure Source (σ : Type) where
  /-- What a read of at most the given number of bytes brings. -/
  read : Nat → σ → Received × σ
  /-- How long a read may take. -/
  limit : Option Duration
  /-- Bounds the bytes still to come. -/
  budget : σ → Nat
  read_budget : ∀ n s, budget (read n s).2 ≤ budget s
  bytes_budget : ∀ n s b, (read n s).1 = .bytes b → budget (read n s).2 + b.length ≤ budget s

/-- What one write of some bytes comes to. -/
inductive Written
  | accepted (n : Nat)
  | failed (e : IoError)
  | nothing
deriving Repr, DecidableEq

/-- What a flush comes to. -/
inductive Flushed
  | done
  | failed (e : IoError)
  | nothing
deriving Repr, DecidableEq

/-- A stream to write to. -/
structure Sink (σ : Type) where
  write : Bytes → σ → Written × σ
  flush : σ → Flushed × σ

/-- What a source still brings: runs of bytes, failures and silences, in order, and then its
end. -/
inductive Arrival
  | bytes (b : Bytes)
  | failure (e : IoError)
  | silence
deriving Repr, DecidableEq

namespace Arrival

/-- The bytes that an arrival brings. -/
def size : Arrival → Nat
  | bytes b => b.length
  | failure _ | silence => 0

/-- The bytes that arrivals bring. -/
def total : List Arrival → Nat
  | [] => 0
  | a :: as => a.size + total as

/-- Reads at most `n` bytes of what arrives. A read never reaches over two arrivals; a run without
bytes looks like the end of the stream to the one read that meets it. -/
def read (n : Nat) : List Arrival → Received × List Arrival
  | [] => (.bytes [], [])
  | .failure e :: r => (.failed e, r)
  | .silence :: r => (.nothing, r)
  | .bytes [] :: r => (.bytes [], r)
  | .bytes (b :: bs) :: r =>
    match (b :: bs).drop n with
    | [] => (.bytes (b :: bs), r)
    | rest => (.bytes ((b :: bs).take n), .bytes rest :: r)

theorem total_read (n : Nat) (as : List Arrival) : total (read n as).2 ≤ total as := by
  fun_cases read n as <;> simp_all [total, size]

theorem total_read_bytes (n : Nat) (as : List Arrival) (b : Bytes)
    (h : (read n as).1 = .bytes b) : total (read n as).2 + b.length ≤ total as := by
  fun_cases read n as with
  | case1 => simp_all [read, total]
  | case2 e r => simp [read] at h
  | case3 r => simp [read] at h
  | case4 r => simp_all [read, total, size]
  | case5 c cs r hd =>
    simp only [read, hd] at h ⊢
    obtain rfl : c :: cs = b := by simpa using h
    simp [total, size, Nat.add_comm]
  | case6 c cs r hd =>
    obtain rfl : (c :: cs).take n = b := by simpa [read] using h
    simp only [total, size]
    have := congrArg List.length (List.take_append_drop n (c :: cs))
    simp only [List.length_append] at this
    omega

/-- The stream of what arrives. -/
def source (limit : Option Duration) : Source (List Arrival) where
  read := read
  limit := limit
  budget := total
  read_budget := total_read
  bytes_budget := total_read_bytes

end Arrival

/-- What a write that follows a script comes to. -/
inductive Acceptance
  | upTo (n : Nat)
  | failure (e : IoError)
  | silence
deriving Repr, DecidableEq

/-- A writer that follows a script and takes everything after its end. `taken` holds the bytes it
took, the last first. -/
structure Script where
  steps : List Acceptance
  flush : Flushed
  taken : Bytes
  flushed : Bool
deriving Repr, DecidableEq

namespace Script

/-- A writer before its first write. -/
def start (steps : List Acceptance) (flush : Flushed) : Script := ⟨steps, flush, [], false⟩

/-- Takes bytes. -/
def take (s : Script) (b : Bytes) : Written × Script :=
  (.accepted b.length, { s with taken := b.reverse ++ s.taken })

/-- The writer as a stream. -/
def sink : Sink Script where
  write b s :=
    match s.steps with
    | [] => s.take b
    | .upTo n :: r => take { s with steps := r } (b.take n)
    | .failure e :: r => (.failed e, { s with steps := r })
    | .silence :: r => (.nothing, { s with steps := r })
  flush s := (s.flush, { s with flushed := s.flush = .done })

end Script

end TagStore
