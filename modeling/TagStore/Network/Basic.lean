import TagStore.Cluster.Probe
import TagStore.Wire.Stream

/-!
# Networks

What a client needs of a network, as functions on a state of its own: a clock, connections by
number, and the answers to attempts to connect. Waiting is the client's business: where a network
stays silent, the client lets its limit pass and goes on. A connection never brings more than its
budget of bytes as long as nothing is written.
-/

namespace TagStore

/-- What an attempt to connect comes to. -/
inductive Dialed
  | connected (link : Nat)
  | failed (e : IoError)
  | nothing
deriving Repr, DecidableEq

/-- What a connection that nobody uses looks like. -/
inductive IdleState
  | quiet
  | closed
  | unexpected
deriving Repr, DecidableEq

/-- A network. -/
structure Network (ω : Type) where
  /-- Nanoseconds since the start of the clock. -/
  now : ω → Nat
  /-- Lets time pass. -/
  wait : Duration → ω → ω
  /-- Connects to an address. -/
  dial : String → ω → Dialed × ω
  /-- What an attempt to connect to an address would meet. -/
  reach : String → ω → Reach
  write : Nat → Bytes → ω → Written × ω
  /-- Reads at most a number of bytes from a connection. -/
  read : Nat → Nat → ω → Received × ω
  /-- Looks at a connection and takes nothing from it. -/
  peek : Nat → ω → IdleState
  close : Nat → ω → ω
  /-- Bounds the bytes still to come on a connection. -/
  budget : Nat → ω → Nat
  read_budget : ∀ c n s, budget c (read c n s).2 ≤ budget c s
  bytes_budget : ∀ c n s b, (read c n s).1 = .bytes b →
    budget c (read c n s).2 + b.length ≤ budget c s
  wait_budget : ∀ c d s, budget c (wait d s) ≤ budget c s

namespace Network

variable {ω : Type}

/-- A connection to read from, where each read may take `limit`. -/
def source (net : Network ω) (link : Nat) (limit : Duration) : Source ω where
  read n s :=
    match net.read link n s with
    | (.nothing, s) => (.nothing, net.wait limit s)
    | (.bytes b, s) => (.bytes b, s)
    | (.failed e, s) => (.failed e, s)
  limit := some limit
  budget := net.budget link
  read_budget n s := by
    have h := net.read_budget link n s
    split <;> rename_i hr <;> rw [hr] at h
    · exact Nat.le_trans (net.wait_budget link limit _) h
    · exact h
    · exact h
  bytes_budget n s b h := by
    have hb := net.bytes_budget link n s b
    split at h <;> rename_i hr
    · cases h
    · cases h
      rw [hr] at hb
      exact hb rfl
    · cases h

/-- A connection to write to. What it takes is on its way at once. -/
def sink (net : Network ω) (link : Nat) (limit : Duration) : Sink ω where
  write b s :=
    match net.write link b s with
    | (.nothing, s) => (.nothing, net.wait limit s)
    | (w, s) => (w, s)
  flush s := (.done, s)

/-- A network on which no address can be reached. -/
def unreachable : Network Unit where
  now _ := 0
  wait _ _ := ()
  dial _ _ := (.failed ⟨.networkUnreachable, "Network is unreachable (os error 101)"⟩, ())
  reach _ _ := .refuses
  write _ _ _ := (.failed ⟨.other, "not connected"⟩, ())
  read _ _ _ := (.bytes [], ())
  peek _ _ := .closed
  close _ _ := ()
  budget _ _ := 0
  read_budget _ _ _ := Nat.le_refl 0
  bytes_budget _ _ _ b h := by cases h; exact Nat.le_refl 0
  wait_budget _ _ _ := Nat.le_refl 0

end Network

end TagStore
