import TagStore.Client.Error
import TagStore.Cluster.Registry
import TagStore.Network.Basic
import TagStore.Wire.Reader
import TagStore.Wire.Request

/-!
# The pool of connections

Connections are opened when they are needed and kept for later use, the longest kept first. A
connection is kept only if its last reply was read to the end, it is young enough, and it is not one
of those opened while there were more than the pool may hold; it is used again only if nothing has
happened on it meanwhile. An endpoint that cannot be reached, or that has closed a connection which
was kept, is taken out of use.
-/

namespace TagStore

/-- An open connection. -/
structure Connection where
  /-- Its number on the network. -/
  link : Nat
  /-- The place of its endpoint. -/
  node : Nat
  /-- The address of its endpoint. -/
  address : String
  /-- How many connections the pool had opened when it was opened, itself included. -/
  serial : Nat
  /-- When it has become too old. -/
  expiresAt : Nat
  buffer : ReadBuffer
deriving Repr, DecidableEq

/-- The counters of a pool: connections open, the most that ever were, and those kept. -/
structure PoolStats where
  live : Nat
  peak : Nat
  idle : Nat
deriving Repr, DecidableEq

/-- A pool of connections, with the network that they run over. -/
structure Pool (ω : Type) where
  settings : PoolSettings
  /-- Whether the traffic is put on record. -/
  watched : Bool
  net : ω
  /-- The traffic seen, the latest first. -/
  seen : List Traffic
  registry : Registry
  /-- The connections kept, the one to be used next first. -/
  idle : List Connection
  live : Nat
  peak : Nat
  /-- The serial number of the last connection opened. -/
  serial : Nat
  /-- The serial number of the last connection opened while no more were open than the pool may
  hold. -/
  latestPooled : Nat

/-- Whether a connection that was kept can be used. -/
inductive Liveness
  | ready
  | expired
  | peerClosed
  | unusable
deriving Repr, DecidableEq

namespace Pool

variable {ω : Type}

/-- A pool without connections. -/
def empty (settings : PoolSettings) (watched : Bool) (registry : Registry) (net : ω) : Pool ω where
  settings := settings
  watched := watched
  net := net
  seen := []
  registry := registry
  idle := []
  live := 0
  peak := 0
  serial := 0
  latestPooled := 0

/-- The counters. -/
def stats (p : Pool ω) : PoolStats := ⟨p.live, p.peak, p.idle.length⟩

/-- Lets the probes do what was due before a moment. -/
def runProbes (net : Network ω) (limit : Nat) (p : Pool ω) : Pool ω :=
  { p with registry := p.registry.runProbes (fun addr => net.reach addr p.net) limit }

/-- Lets the probes do what was due before now. What is due at this very moment comes after what is
going on. -/
def catchUp (net : Network ω) (p : Pool ω) : Pool ω := p.runProbes net (net.now p.net)

/-- Lets the probes do all that is due. -/
def settle (net : Network ω) (p : Pool ω) : Pool ω := p.runProbes net (net.now p.net + 1)

/-- Lets time pass, and the probes do all that is due by then. -/
def wait (net : Network ω) (d : Duration) (p : Pool ω) : Pool ω :=
  settle net { p with net := net.wait d p.net }

/-- Waits until an endpoint is in use, looking at it every millisecond and at most `n` times more;
says whether it is. -/
def waitOnline (net : Network ω) (i : Nat) : Nat → Pool ω → Bool × Pool ω
  | 0, p => (!p.registry.isOffline i, p)
  | n + 1, p =>
    if p.registry.isOffline i then waitOnline net i n (p.wait net (.ofMillis 1)) else (true, p)

/-- Takes an endpoint out of use; says whether it was in use. -/
def markOffline (net : Network ω) (i : Nat) (p : Pool ω) : Bool × Pool ω :=
  let (changed, registry) := p.registry.markOffline true (net.now p.net) i
  (changed, { p with registry })

/-- Puts an endpoint back into use. -/
def markOnline (i : Nat) (p : Pool ω) : Pool ω := { p with registry := p.registry.markOnline i }

/-- Whether a connection has become too old. -/
def isExpired (net : Network ω) (p : Pool ω) (c : Connection) : Bool :=
  c.expiresAt ≤ net.now p.net

/-- Whether a connection that was kept can be used. -/
def liveness (net : Network ω) (p : Pool ω) (c : Connection) : Liveness :=
  if p.isExpired net c then .expired
  else if c.buffer.unread ≠ [] then .unusable
  else match net.peek c.link p.net with
    | .quiet => .ready
    | .closed => .peerClosed
    | .unexpected => .unusable

/-- Closes a connection. -/
def destroy (net : Network ω) (c : Connection) (p : Pool ω) : Pool ω :=
  { p with net := net.close c.link p.net, live := p.live - 1 }

/-- The greatest age that a connection is let grow to. The clock ends after twice that time, and a
program that looks beyond the end of its clock is stopped; no connection is opened for so long. -/
def longestTtl : Duration := .ofSecs 4611686018427387904

/-- The age from which a connection is too old. -/
def ttl (p : Pool ω) : Nat := min p.settings.connectionTtl.nanos longestTtl.nanos

/-- Takes a connection just made to an endpoint into the books. -/
def register (net : Network ω) (link i : Nat) (p : Pool ω) : Connection × Pool ω :=
  let serial := p.serial + 1
  let live := p.live + 1
  ({ link := link
     node := i
     address := p.registry.address i
     serial := serial
     expiresAt := net.now p.net + p.ttl
     buffer := .standard },
   { p with
     serial := serial
     live := live
     peak := max p.peak live
     latestPooled :=
       if live ≤ p.settings.maxPoolSize then max p.latestPooled serial else p.latestPooled })

/-- In the first half of its time the clock can tell when a connection will be too old. -/
theorem expiresAt_register_le {net : Network ω} {p : Pool ω} (link i : Nat)
    (h : net.now p.net ≤ longestTtl.nanos) :
    (p.register net link i).1.expiresAt ≤ 2 * longestTtl.nanos := by
  rw [Nat.two_mul]
  exact Nat.add_le_add h (Nat.min_le_right _ _)

/-- Connects to an endpoint, waiting for it no longer than the limit. -/
def connect (net : Network ω) (i : Nat) (p : Pool ω) : Except String Nat × Pool ω :=
  let addr := p.registry.address i
  match net.dial addr p.net with
  | (.connected link, s) => (.ok link, { p with net := s })
  | (.failed e, s) => (.error s!"{addr}: {e.text}", { p with net := s })
  | (.nothing, s) =>
    (.error s!"{addr}: connect timed out after {p.settings.connectTimeout.text}",
      { p with net := net.wait p.settings.connectTimeout s })

/-- Chooses the next endpoint. -/
def nextEndpoint (net : Network ω) (p : Pool ω) : Nat × Pool ω :=
  let p := p.catchUp net
  let (i, registry) := p.registry.next
  (i, { p with registry })

/-- Connects to the next endpoint that can be reached, in at most `left` further attempts; those
made so far, the endpoint of the first and the error of the last are given. An attempt that fails
takes its endpoint out of use. Coming round to the first endpoint ends the search. -/
def openFrom (net : Network ω) (left attempts : Nat) (first : Option Nat) (lastError : String)
    (p : Pool ω) : Except ClientError Connection × Pool ω :=
  match left with
  | 0 => (.error (.noAvailableEndpoint attempts lastError), p)
  | left + 1 =>
    let (i, p) := p.nextEndpoint net
    if first = some i then (.error (.noAvailableEndpoint attempts lastError), p)
    else
      match p.connect net i with
      | (.ok link, p) =>
        let p := if p.registry.isOffline i then p.markOnline i else p
        let (c, p) := p.register net link i
        (.ok c, p)
      | (.error text, p) =>
        openFrom net left (attempts + 1) (first.or (some i)) text (p.markOffline net i).2

/-- Opens a connection. -/
def openNew (net : Network ω) (p : Pool ω) : Except ClientError Connection × Pool ω :=
  openFrom net p.registry.size 0 none "no endpoint attempted" p

/-- A connection to use: the one kept longest if it can be used, or else a new one. -/
def acquire (net : Network ω) (p : Pool ω) : Except ClientError Connection × Pool ω :=
  match p.idle with
  | [] => p.openNew net
  | c :: rest =>
    let p := { p with idle := rest }
    match p.liveness net c with
    | .ready => (.ok c, p)
    | .peerClosed => openNew net (destroy net c (p.markOffline net c.node).2)
    | .expired | .unusable => openNew net (destroy net c p)

/-- Keeps a connection whose exchange went well, or closes it if it may not be kept. -/
def recycle (net : Network ω) (c : Connection) (p : Pool ω) : Pool ω :=
  if p.latestPooled < c.serial || p.isExpired net c || c.buffer.unread ≠ [] ||
      p.settings.maxPoolSize ≤ p.idle.length then
    p.destroy net c
  else { p with idle := p.idle ++ [c] }

/-- Who is on the other end, if the traffic is put on record. -/
def peer (p : Pool ω) (c : Connection) : Option String := if p.watched then some c.address else none

/-- Sends a request over a connection. -/
def send (net : Network ω) (c : Connection) (r : Request) (p : Pool ω) :
    Except ProtocolError Unit × Pool ω :=
  let limit := p.settings.readTimeout
  let (result, w) := r.sendWatched (net.sink c.link limit) (some limit) (p.peer c) ⟨p.net, p.seen⟩
  (result, { p with net := w.state, seen := w.seen })

/-- Reads from a connection by a rule for readers of any stream. -/
def receive {α : Type} (net : Network ω) (c : Connection)
    (read : {σ : Type} → Source σ → Reader σ → α × Reader σ) (p : Pool ω) :
    α × Connection × Pool ω :=
  let src := (net.source c.link p.settings.readTimeout).watched (p.peer c)
  let (a, r) := read src (.start ⟨p.net, p.seen⟩ c.buffer)
  (a, { c with buffer := r.buffer }, { p with net := r.stream.state, seen := r.stream.seen })

end Pool

end TagStore
