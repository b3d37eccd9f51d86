import TagStore.Network.Basic
import TagStore.Wire.Field

/-!
# A simulated network

Servers that do as they are told, on a clock that moves only while somebody waits. Server `i`
listens at `serveri:1`. Every line that arrives at a server that is up is put on record and takes
the next reply from one queue; where the queue is empty the connection is dropped. Replies arrive
in pieces, and no read reaches over two of them.
-/

namespace TagStore.Simulated

/-- How a server behaves: it answers, refuses connections, accepts them and never answers, or
leaves attempts to connect without an answer. -/
inductive ServerState
  | up
  | down
  | deaf
  | silent
deriving Repr, DecidableEq

/-- A server, and how many of its connections have sent a line. -/
structure Server where
  state : ServerState
  callers : Nat
deriving Repr, DecidableEq

/-- What becomes of a line: bytes are sent in pieces and the connection may then be closed; it is
dropped without an answer; or it stays open without one. -/
inductive Reply
  | send (pieces : List Bytes) (close : Bool)
  | drop
  | stall
deriving Repr, DecidableEq

/-- A connection. -/
structure Link where
  server : Nat
  /-- Whether its server takes part in it. -/
  answered : Bool
  /-- Its place among the connections of its server that have sent a line. -/
  caller : Option Nat
  /-- The bytes of a line that is not finished, the last first. -/
  unfinished : Bytes
  /-- How many bytes an unanswered connection has taken. -/
  taken : Nat
  /-- The pieces on their way to the client. -/
  arriving : List Bytes
  /-- Whether the server keeps its end open. -/
  serverOpen : Bool
  /-- Whether the client keeps its end open. -/
  clientOpen : Bool
deriving Repr, DecidableEq

/-- A line that arrived. -/
structure Arrived where
  server : Nat
  caller : Nat
  line : Bytes
deriving Repr, DecidableEq

/-- The state of the network. Without a route no server can be reached. -/
structure World where
  now : Nat
  routed : Bool
  servers : List Server
  links : List Link
  replies : List Reply
  /-- What arrived, the latest first. -/
  arrived : List Arrived
deriving Repr, DecidableEq

/-- The address of a server. -/
def address (i : Nat) : String := s!"server{i}:1"

/-- How many bytes an unanswered connection takes. -/
def deafLimit : Nat := 1048576

/-- A network whose servers are in the given states. -/
def World.start (routed : Bool) (states : List ServerState) : World :=
  ⟨0, routed, states.map fun s => ⟨s, 0⟩, [], [], []⟩

/-- The place of the server that listens at an address. -/
def World.serverAt? (w : World) (addr : String) : Option Nat :=
  (List.range w.servers.length).find? fun i => address i = addr

/-- The state of the server at a place. -/
def World.stateOf (w : World) (i : Nat) : ServerState :=
  ((w.servers[i]?).map (·.state)).getD .down

/-- Changes a connection. -/
def World.modifyLink (w : World) (c : Nat) (f : Link → Link) : World :=
  { w with links := w.links.modify c f }

/-- The failure of an address without a host. -/
def unknownHost : IoError :=
  ⟨.other, "failed to lookup address information: Temporary failure in name resolution"⟩

/-- The failure of an address that no network leads to. -/
def noRoute : IoError := ⟨.networkUnreachable, "Network is unreachable (os error 101)"⟩

/-- The failure of an address where nobody listens. -/
def refused : IoError := ⟨.connectionRefused, "Connection refused (os error 111)"⟩

/-- A new connection to a server. -/
def World.connect (w : World) (i : Nat) (answered : Bool) : Dialed × World :=
  (.connected w.links.length,
    { w with links := w.links ++ [⟨i, answered, none, [], 0, [], true, true⟩] })

/-- Connects to an address. -/
def World.dial (w : World) (addr : String) : Dialed × World :=
  match w.serverAt? addr with
  | none => (.failed unknownHost, w)
  | some i =>
    if !w.routed then (.failed noRoute, w)
    else match w.stateOf i with
      | .up => w.connect i true
      | .deaf => w.connect i false
      | .down => (.failed refused, w)
      | .silent => (.nothing, w)

/-- What an attempt to connect to an address would meet. -/
def World.reach (w : World) (addr : String) : Reach :=
  match w.serverAt? addr with
  | none => .refuses
  | some i =>
    if !w.routed then .refuses
    else match w.stateOf i with
      | .up | .deaf => .accepts
      | .down => .refuses
      | .silent => .silent

/-- The next reply, or a drop where none is left. -/
def World.takeReply (w : World) : Reply × World :=
  match w.replies with
  | [] => (.drop, w)
  | r :: rs => (r, { w with replies := rs })

/-- The place of a connection among those of its server that have sent a line. -/
def World.callerOf (w : World) (c : Nat) (l : Link) : Nat × World :=
  match l.caller with
  | some n => (n, w)
  | none =>
    let n := ((w.servers[l.server]?).map (·.callers)).getD 0
    (n, { w.modifyLink c (fun l => { l with caller := some n }) with
      servers := w.servers.modify l.server fun s => { s with callers := n + 1 } })

/-- What a reply does to a connection. -/
def Link.answer (l : Link) : Reply → Link
  | .send pieces close =>
    { l with
      arriving := l.arriving ++ pieces.filter (· ≠ [])
      serverOpen := l.serverOpen && !close }
  | .drop => { l with serverOpen := false }
  | .stall => l

/-- Puts a line that arrived on record and answers it. -/
def World.serve (w : World) (c : Nat) (l : Link) (line : Bytes) : World :=
  let (caller, w) := w.callerOf c l
  let (reply, w) := w.takeReply
  { w.modifyLink c (·.answer reply) with arrived := ⟨l.server, caller, line⟩ :: w.arrived }

/-- Takes bytes that arrive on a connection; `acc` holds those of a line that is not finished, the
last first. -/
def World.take (c : Nat) (acc : Bytes) : Bytes → World → World
  | [], w => w.modifyLink c fun l => { l with unfinished := acc }
  | b :: r, w =>
    if b = Wire.lineEnd then
      match w.links[c]? with
      | some l => if l.serverOpen then World.take c [] r (w.serve c l acc.reverse) else w
      | none => w
    else World.take c (b :: acc) r w

/-- Writes to a connection. What is written to a connection that its server has closed is lost. -/
def World.write (w : World) (c : Nat) (b : Bytes) : Written × World :=
  match w.links[c]? with
  | none => (.accepted b.length, w)
  | some l =>
    if !l.serverOpen then (.accepted b.length, w)
    else if l.answered then (.accepted b.length, World.take c l.unfinished b w)
    else
      match min b.length (deafLimit - l.taken) with
      | 0 => (.nothing, w)
      | n => (.accepted n, w.modifyLink c fun l => { l with taken := l.taken + n })

/-- Reads at most `n` bytes from a connection. -/
def World.read (w : World) (c n : Nat) : Received × World :=
  match w.links[c]? with
  | none => (.bytes [], w)
  | some l =>
    match l.arriving with
    | [] => (if l.serverOpen then .nothing else .bytes [], w)
    | piece :: rest =>
      let later := match piece.drop n with
        | [] => rest
        | left => left :: rest
      (.bytes (piece.take n), w.modifyLink c fun l => { l with arriving := later })

/-- Looks at a connection. -/
def World.peek (w : World) (c : Nat) : IdleState :=
  match w.links[c]? with
  | none => .closed
  | some l => if l.arriving ≠ [] then .unexpected else if l.serverOpen then .quiet else .closed

/-- Closes the client's end of a connection. -/
def World.close (w : World) (c : Nat) : World :=
  w.modifyLink c fun l => { l with clientOpen := false }

/-- The bytes on their way over a connection. -/
def World.budget (w : World) (c : Nat) : Nat :=
  ((w.links[c]?).map fun l => l.arriving.flatten.length).getD 0

theorem budget_modifyLink (w : World) (c : Nat) (f : Link → Link) {l : Link}
    (h : w.links[c]? = some l) :
    (w.modifyLink c f).budget c = (f l).arriving.flatten.length := by
  simp [World.budget, World.modifyLink, h]

theorem read_budget (w : World) (c n : Nat) (b : Bytes) (h : (w.read c n).1 = .bytes b) :
    (w.read c n).2.budget c + b.length ≤ w.budget c := by
  unfold World.read at h ⊢
  split at h
  · cases h
    simp
  · rename_i l hl
    split at h
    · dsimp only at h
      split at h <;> cases h
      simp
    · rename_i piece rest ha
      cases h
      rw [budget_modifyLink _ _ _ hl]
      have hb : w.budget c = piece.length + rest.flatten.length := by
        simp [World.budget, hl, ha]
      have hp := congrArg List.length (List.take_append_drop n piece)
      rw [List.length_append] at hp
      rw [hb]
      dsimp only
      split
      · omega
      · rename_i left _
        rw [List.flatten_cons, List.length_append]
        omega

theorem read_budget_le (w : World) (c n : Nat) : (w.read c n).2.budget c ≤ w.budget c := by
  cases h : (w.read c n).1 with
  | bytes b => exact Nat.le_trans (Nat.le_add_right _ _) (read_budget w c n b h)
  | failed e =>
    unfold World.read at h
    split at h
    · cases h
    · split at h
      · split at h <;> cases h
      · cases h
  | nothing =>
    unfold World.read at h ⊢
    split at h
    · cases h
    · split at h
      · exact Nat.le_refl _
      · cases h

/-- The simulated network. -/
def network : Network World where
  now := World.now
  wait d w := { w with now := w.now + d.nanos }
  dial addr w := w.dial addr
  reach addr w := w.reach addr
  write c b w := w.write c b
  read c n w := w.read c n
  peek c w := w.peek c
  close c w := w.close c
  budget c w := w.budget c
  read_budget c n w := read_budget_le w c n
  bytes_budget c n w b h := read_budget w c n b h
  wait_budget _ _ _ := Nat.le_refl _

namespace World

/-- Closes a server's ends of its connections. -/
def closeLinks (w : World) (i : Nat) : World :=
  { w with links := w.links.map fun l => if l.server = i then { l with serverOpen := false } else l }

/-- Puts a server into a state. -/
def setState (w : World) (i : Nat) (s : ServerState) : World :=
  { w with servers := w.servers.modify i fun v => { v with state := s } }

/-- A server stops to listen and closes its connections. -/
def serverDown (w : World) (i : Nat) : World := (w.setState i .down).closeLinks i

/-- A server that cannot be reached listens again. -/
def serverUp (w : World) (i : Nat) : World :=
  match w.stateOf i with
  | .down | .silent => w.setState i .up
  | .up | .deaf => w

/-- Sends bytes that nobody asked for over all open connections of a server. -/
def push (w : World) (i : Nat) (b : Bytes) : World :=
  { w with links := w.links.map fun l =>
      if l.server = i && l.serverOpen && l.clientOpen then l.answer (.send [b] false) else l }

/-- Adds replies to the queue. -/
def enqueue (w : World) (rs : List Reply) : World := { w with replies := w.replies ++ rs }

end World

end TagStore.Simulated
