import Mathlib.Logic.Function.Basic
import TagStore.Client.Exchange
import TagStore.Proofs.Client.Attempt
import TagStore.Proofs.Client.Failover
import TagStore.Proofs.Client.RequestLine
import TagStore.Proofs.Node.Master
import TagStore.Proofs.Wire.Supply

/-!
# A network with one node

A network on which every address leads to one master node, and on which nothing goes wrong: every
attempt to connect is accepted, every line is answered at its end, and no byte is lost. How many
bytes one write or one read moves, and how long it takes, is anything at all (`Pace`).

Between exchanges nothing is on its way, and the buffers of the connections that are kept are empty
(`Pool.Quiet`). From such a pool an exchange comes to what its reply says, and the node has answered
the request just once (`Exchange.run_hosted`); and so does every operation
(`Operation.run_hosted`).
-/

namespace TagStore

open Wire

/-- A connection to a node: the bytes of a request that is not finished, the last first, and the
bytes of replies on their way to the client. -/
structure Channel where
  unfinished : Bytes
  arriving : Bytes
deriving DecidableEq

/-- A connection on which nothing is on its way. -/
def Channel.clear : Channel := ⟨[], []⟩

/-- A node and its connections. -/
structure Host where
  master : Master
  channels : Nat → Channel

namespace Host

/-- A node to which nothing is said. -/
def calm (m : Master) : Host := ⟨m, fun _ => .clear⟩

/-- A node that has said `b` on one connection and nothing else. -/
def owing (m : Master) (k : Nat) (b : Bytes) : Host :=
  ⟨m, Function.update (fun _ => .clear) k ⟨[], b⟩⟩

/-- Takes a byte that arrives on a connection. The end of a line is answered. -/
def takeByte (k : Nat) (h : Host) (x : UInt8) : Host :=
  let c := h.channels k
  if x = lineEnd then
    let (reply, m) := h.master.handle c.unfinished.reverse
    ⟨m, Function.update h.channels k ⟨[], c.arriving ++ reply⟩⟩
  else ⟨h.master, Function.update h.channels k ⟨x :: c.unfinished, c.arriving⟩⟩

/-- Takes bytes that arrive on a connection. -/
def take (k : Nat) (h : Host) (b : Bytes) : Host := b.foldl (takeByte k) h

/-- Gives the first bytes on their way over a connection to the client. -/
def give (k n : Nat) (h : Host) : Host :=
  let c := h.channels k
  ⟨h.master, Function.update h.channels k ⟨c.unfinished, c.arriving.drop n⟩⟩

@[simp] theorem owing_nil (m : Master) (k : Nat) : owing m k [] = calm m :=
  congrArg (Host.mk m) (Function.update_eq_self k fun _ => Channel.clear)

@[simp] theorem arriving_owing (m : Master) (k : Nat) (b : Bytes) :
    ((owing m k b).channels k).arriving = b := by
  simp [owing]

theorem give_owing (m : Master) (k n : Nat) (b : Bytes) :
    (owing m k b).give k n = owing m k (b.drop n) := by
  simp [owing, give]

theorem take_append (k : Nat) (h : Host) (a b : Bytes) :
    h.take k (a ++ b) = (h.take k a).take k b :=
  List.foldl_append

/-- Bytes within a line are kept for its end. -/
theorem take_body (k : Nat) (h : Host) {b : Bytes} (hb : lineEnd ∉ b) :
    h.take k b = ⟨h.master, Function.update h.channels k
      ⟨b.reverse ++ (h.channels k).unfinished, (h.channels k).arriving⟩⟩ := by
  induction b generalizing h with
  | nil => simp [take]
  | cons x xs ih =>
    rw [List.mem_cons, not_or] at hb
    have hx : h.take k (x :: xs) = (h.takeByte k x).take k xs := rfl
    rw [hx, ih _ hb.2, takeByte]
    simp [Ne.symm hb.1]

/-- **A line is answered.** -/
theorem take_line (m : Master) (k : Nat) {b : Bytes} (hb : lineEnd ∉ b) :
    (calm m).take k (b ++ [lineEnd]) = owing (m.handle b).2 k (m.handle b).1 := by
  rw [take_append, take_body k _ hb]
  simp [take, takeByte, calm, owing, Channel.clear]

end Host

/-- How a network goes about its work: how long each of its steps takes, and how many bytes it moves
beyond the first. -/
structure Pace where
  delay : Nat → Nat
  grain : Nat → Nat

/-- A network with one node. -/
structure Hosted where
  host : Host
  /-- How many connections were made. -/
  opened : Nat
  now : Nat
  /-- How many steps the network has made. -/
  steps : Nat

namespace Hosted

/-- A network that has not been used. -/
def fresh : Hosted := ⟨.calm .empty, 0, 0, 0⟩

/-- The network after one more step. -/
def step (pace : Pace) (h : Host) (w : Hosted) : Hosted :=
  ⟨h, w.opened, w.now + pace.delay w.steps, w.steps + 1⟩

@[simp] theorem host_step (pace : Pace) (h : Host) (w : Hosted) : (w.step pace h).host = h := rfl

/-- How many of `n` bytes the next step moves. -/
def size (pace : Pace) (w : Hosted) (n : Nat) : Nat := min n (pace.grain w.steps + 1)

/-- Reads from a connection. -/
def read (pace : Pace) (k n : Nat) (w : Hosted) : Received × Hosted :=
  match (w.host.channels k).arriving with
  | [] => (.nothing, w.step pace w.host)
  | x :: r => (.bytes ((x :: r).take (w.size pace n)), w.step pace (w.host.give k (w.size pace n)))

theorem budget_read (pace : Pace) (k n : Nat) (w : Hosted) :
    ((w.read pace k n).2.host.channels k).arriving.length + (w.read pace k n).1.taken.length =
      (w.host.channels k).arriving.length := by
  unfold read
  split
  · rename_i h
    simp [h, Received.taken]
  · rename_i x r h
    simp only [host_step, Host.give, Function.update_self, h, Received.taken, List.length_drop,
      List.length_take]
    omega

/-- The network as clients see it. -/
def network (pace : Pace) : Network Hosted where
  now := Hosted.now
  wait d w := { w with now := w.now + d.nanos }
  dial _ w := (.connected w.opened, { w.step pace w.host with opened := w.opened + 1 })
  reach _ _ := .accepts
  write k b w :=
    let n := w.size pace b.length
    (.accepted n, w.step pace (w.host.take k (b.take n)))
  read k n w := w.read pace k n
  peek k w := if (w.host.channels k).arriving = [] then .quiet else .unexpected
  close _ w := w.step pace w.host
  budget k w := (w.host.channels k).arriving.length
  read_budget k n w := by
    have h := budget_read pace k n w
    omega
  bytes_budget k n w b hb := by
    have h := budget_read pace k n w
    rw [hb] at h
    exact Nat.le_of_eq h
  wait_budget _ _ _ := Nat.le_refl _

variable {pace : Pace} {m : Master} {k : Nat}

/-- All bytes that are offered are taken. -/
theorem writeAll (pace : Pace) (k : Nat) (limit : Duration) (b : Bytes) (w : Hosted) :
    ∃ w', Request.writeAll ((network pace).sink k limit) (some limit) b w = (.ok (), w') ∧
      w'.host = w.host.take k b := by
  induction hn : b.length using Nat.strongRecOn generalizing b w with
  | ind n ih =>
    cases b with
    | nil => exact ⟨w, by rw [Request.writeAll], rfl⟩
    | cons x xs =>
      obtain ⟨i, hi⟩ : ∃ i, w.size pace (x :: xs).length = i + 1 := by
        refine ⟨min xs.length (pace.grain w.steps), ?_⟩
        simp [size]
      have hwrite : ((network pace).sink k limit).write (x :: xs) w =
          (.accepted (i + 1), w.step pace (w.host.take k (x :: xs.take i))) := by
        simp only [Network.sink, network, hi, List.take_succ_cons]
      have hless : (xs.drop i).length < n := by
        rw [← hn, List.length_drop, List.length_cons]
        omega
      obtain ⟨w', hrun, hhost⟩ := ih (xs.drop i).length hless (xs.drop i)
        (w.step pace (w.host.take k (x :: xs.take i))) rfl
      refine ⟨w', ?_, ?_⟩
      · rw [Request.writeAll, hwrite]
        exact hrun
      · rw [hhost, host_step, ← Host.take_append, List.cons_append, List.take_append_drop]

/-- A read of what the node has said. -/
theorem read_owing (pace : Pace) {w : Hosted} {b : Bytes} (hw : w.host = .owing m k b) (n : Nat) :
    ∃ w', w.read pace k n =
        (if b = [] then .nothing else .bytes (b.take (w.size pace n)), w') ∧
      w'.host = .owing m k (b.drop (w.size pace n)) := by
  unfold read
  rw [hw, Host.arriving_owing]
  cases b with
  | nil => exact ⟨_, rfl, by simp⟩
  | cons x xs => exact ⟨_, rfl, Host.give_owing m k _ _⟩

/-- **A connection brings what the node has said.** -/
theorem supplies (pace : Pace) (m : Master) (k : Nat) (limit : Duration) (peer : Option String) :
    (((network pace).source k limit).watched peer).Supplies
      fun b (w : Watched Hosted) => w.state.host = .owing m k b := by
  have hread : ∀ {b : Bytes} {w : Watched Hosted} (n : Nat), w.state.host = .owing m k b →
      ((((network pace).source k limit).watched peer).read n w).1.taken =
          b.take (w.state.size pace n) ∧
        ((((network pace).source k limit).watched peer).read n w).2.state.host =
          .owing m k (b.drop (w.state.size pace n)) := by
    intro b w n hw
    obtain ⟨w', hr, hw'⟩ := read_owing pace hw n
    have hr : (network pace).read k n w.state = _ := hr
    by_cases hb : b = []
    · simp only [Source.watched, Network.source, hr, if_pos hb]
      exact ⟨by simp [hb, Received.taken], hw'⟩
    · simp only [Source.watched, Network.source, hr, if_neg hb]
      exact ⟨rfl, hw'⟩
  constructor
  · intro b w n hw
    obtain ⟨ht, hw'⟩ := hread n hw
    exact ⟨_, by rw [ht, List.take_append_drop], hw'⟩
  · intro b w n hn hw ht
    obtain ⟨ht', -⟩ := hread n hw
    rw [ht'] at ht
    have hsize : 0 < w.state.size pace n := by
      simp only [size]
      omega
    rcases List.take_eq_nil_iff.1 ht with h | h
    · omega
    · exact h

/-- A reader with nothing in its buffer has before it what the node has said. -/
theorem before_start {w : Watched Hosted} {buffer : ReadBuffer} {b : Bytes}
    (hunread : buffer.unread = []) (hroom : 0 < buffer.capacity)
    (hhost : w.state.host = .owing m k b) :
    Reader.Before (fun b (w : Watched Hosted) => w.state.host = .owing m k b) b true
      (.start w buffer) :=
  ⟨hroom, rfl, b, by simp [Reader.start, hunread], hhost⟩

end Hosted

/-! ## Exchanges -/

theorem Registry.size_runProbes (reach : String → Reach) (limit : Nat) (r : Registry) :
    (r.runProbes reach limit).size = r.size :=
  List.foldlRecOn (motive := fun r' => r'.size = r.size) r.probes _ rfl fun r' hr q _ =>
    (size_eq_of_rotation (rotation_runProbe reach limit r' q)).trans hr

namespace Pool

variable {pace : Pace} {m : Master} {p : Pool Hosted}

/-- What holds of a pool between exchanges with a node. -/
structure Quiet (m : Master) (p : Pool Hosted) : Prop where
  host : p.net.host = .calm m
  buffers : ∀ c ∈ p.idle, c.buffer.unread = [] ∧ 0 < c.buffer.capacity
  endpoints : 0 < p.registry.size

theorem Quiet.destroy (h : p.Quiet m) (c : Connection) :
    (p.destroy (Hosted.network pace) c).Quiet m :=
  ⟨h.host, h.buffers, h.endpoints⟩

theorem Quiet.keep (h : p.Quiet m) {c : Connection} (hc : c.buffer.unread = [])
    (hroom : 0 < c.buffer.capacity) : (p.recycle (Hosted.network pace) c).Quiet m := by
  rw [recycle]
  split
  · exact h.destroy c
  · refine ⟨h.host, ?_, h.endpoints⟩
    intro d hd
    rcases List.mem_append.1 hd with hd | hd
    · exact h.buffers d hd
    · obtain rfl := List.mem_singleton.1 hd
      exact ⟨hc, hroom⟩

/-- What becomes of the endpoints does not matter, as long as there are some. -/
theorem Quiet.of_registry (h : p.Quiet m) {r : Registry} (hr : r.size = p.registry.size) :
    Quiet m { p with registry := r } :=
  ⟨h.host, h.buffers, hr ▸ h.endpoints⟩

theorem Quiet.markOffline (h : p.Quiet m) (i : Nat) :
    (p.markOffline (Hosted.network pace) i).2.Quiet m :=
  h.of_registry (Registry.size_eq_of_rotation (Registry.rotation_markOffline _ _ _ _))

theorem Quiet.wait (h : p.Quiet m) (d : Duration) : (p.wait (Hosted.network pace) d).Quiet m := by
  have hw : Quiet m { p with net := (Hosted.network pace).wait d p.net } :=
    ⟨h.host, h.buffers, h.endpoints⟩
  exact hw.of_registry (Registry.size_runProbes _ _ _)

theorem Quiet.register (h : p.Quiet m) (link i : Nat) :
    (p.register (Hosted.network pace) link i).2.Quiet m :=
  ⟨h.host, h.buffers, h.endpoints⟩

/-- Every attempt to connect is accepted. -/
theorem Quiet.connect (h : p.Quiet m) (pace : Pace) (i : Nat) :
    ∃ link p', p.connect (Hosted.network pace) i = (.ok link, p') ∧ p'.Quiet m :=
  ⟨_, _, rfl, h.host, h.buffers, h.endpoints⟩

/-- The first attempt to open a connection succeeds. -/
theorem Quiet.openNew (h : p.Quiet m) (pace : Pace) :
    ∃ c p', p.openNew (Hosted.network pace) = (.ok c, p') ∧ p'.Quiet m ∧
      c.buffer = .standard := by
  obtain ⟨n, hn⟩ : ∃ n, p.registry.size = n + 1 := Nat.exists_eq_succ_of_ne_zero h.endpoints.ne'
  have hnext : (p.nextEndpoint (Hosted.network pace)).2.Quiet m :=
    h.of_registry ((Registry.size_next _).trans (Registry.size_runProbes _ _ _))
  rw [Pool.openNew, hn, openFrom]
  rcases hi : p.nextEndpoint (Hosted.network pace) with ⟨i, q⟩
  rw [hi] at hnext
  obtain ⟨link, q', hconn, hq'⟩ := hnext.connect pace i
  simp only [hconn, reduceCtorEq, if_false]
  have honline : Quiet m (if q'.registry.isOffline i then q'.markOnline i else q') := by
    split
    · exact hq'.of_registry (Registry.size_eq_of_rotation (Registry.rotation_markOnline _ _))
    · exact hq'
  exact ⟨_, _, rfl, honline.register link i, rfl⟩

theorem Quiet.acquire (h : p.Quiet m) (pace : Pace) :
    ∃ c p', p.acquire (Hosted.network pace) = (.ok c, p') ∧ p'.Quiet m ∧
      c.buffer.unread = [] ∧ 0 < c.buffer.capacity := by
  have hopen : ∀ q : Pool Hosted, q.Quiet m → ∃ c p',
      q.openNew (Hosted.network pace) = (.ok c, p') ∧ p'.Quiet m ∧
        c.buffer.unread = [] ∧ 0 < c.buffer.capacity := by
    intro q hq
    obtain ⟨c, p', hrun, hp', hc⟩ := hq.openNew pace
    exact ⟨c, p', hrun, hp', by rw [hc]; rfl, by rw [hc]; decide⟩
  rw [Pool.acquire]
  split
  · exact hopen p h
  · rename_i c rest hidle
    obtain ⟨hc, hrest⟩ := List.forall_mem_cons.1 (hidle ▸ h.buffers)
    have hq : Quiet m { p with idle := rest } := ⟨h.host, hrest, h.endpoints⟩
    simp only
    split
    · exact ⟨c, _, rfl, hq, hc⟩
    · exact hopen _ ((hq.markOffline c.node).destroy c)
    · exact hopen _ (hq.destroy c)
    · exact hopen _ (hq.destroy c)

/-- A line is written to its end and answered. -/
theorem Quiet.send (h : p.Quiet m) (pace : Pace) (c : Connection) {r : Request} {body : Bytes}
    (hbody : lineEnd ∉ body) (hline : r.line = body ++ [lineEnd]) :
    ∃ w seen, p.send (Hosted.network pace) c r = (.ok (), { p with net := w, seen := seen }) ∧
      w.host = .owing (m.handle body).2 c.link (m.handle body).1 := by
  obtain ⟨w, hw, hhost⟩ := Hosted.writeAll pace c.link p.settings.readTimeout r.line p.net
  refine ⟨w, Traffic.record (p.peer c) .outbound r.line p.seen, ?_, ?_⟩
  · simp only [Pool.send, Request.sendWatched, Request.send, hw]
    rfl
  · rw [hhost, hline, h.host, Host.take_line m c.link hbody]

end Pool

namespace Exchange

variable {α : Type} {pace : Pace} {m : Master} {p : Pool Hosted} {x : Exchange α}

/-- An attempt comes to what the reply of the node says. -/
theorem attempt_hosted (h : p.Quiet m) (pace : Pace) {body : Bytes} (hbody : lineEnd ∉ body)
    (hline : x.request.line = body ++ [lineEnd]) {y : Except ClientError α}
    (hreply : ∀ {σ : Type} {src : Source σ} {Due : Bytes → σ → Prop}, src.Supplies Due →
      Reader.Gives Due (x.reply src) (m.handle body).1 true y [] true) :
    (x.attempt (Hosted.network pace) p).1 = y ∧
      (x.attempt (Hosted.network pace) p).2.Quiet (m.handle body).2 := by
  obtain ⟨c, q, hq, hquiet, hunread, hroom⟩ := h.acquire pace
  obtain ⟨w, seen, hsend, hhost⟩ := hquiet.send pace c hbody hline
  rw [attempt, hq]
  simp only [onConnection, hsend, Pool.receive]
  -- the answer of the node is all that is due
  obtain ⟨r, hr, hleft⟩ := hreply (Hosted.supplies pace (m.handle body).2 c.link
    q.settings.readTimeout (q.peer c)) _
    (Hosted.before_start (w := ⟨w, seen⟩) hunread hroom hhost)
  obtain ⟨hnil, hnone⟩ : r.buffer.unread = [] ∧ r.stream.state.host = .calm (m.handle body).2 := by
    obtain ⟨b, hb, hd⟩ := hleft.due
    obtain ⟨hu, rfl⟩ := List.append_eq_nil_iff.1 hb.symm
    exact ⟨hu, by rw [hd, Host.owing_nil]⟩
  have hafter : Pool.Quiet (m.handle body).2
      { q with net := r.stream.state, seen := r.stream.seen } :=
    ⟨hnone, hquiet.buffers, hquiet.endpoints⟩
  have hpeer : Pool.peer { q with net := w, seen := seen } c = q.peer c := rfl
  rw [hpeer, hr]
  cases y with
  | ok a => exact ⟨rfl, hafter.keep hnil hleft.room⟩
  | error e => exact ⟨rfl, hafter.destroy _⟩

/-- **From a quiet pool an exchange comes to what the reply of the node says**, and the node has
answered the request once. -/
theorem run_hosted (h : p.Quiet m) (pace : Pace) {body : Bytes} (hbody : lineEnd ∉ body)
    (hline : x.request.line = body ++ [lineEnd]) {y : Except ClientError α}
    (hy : ∀ e, y = .error e → e.isTransient = false)
    (hreply : ∀ {σ : Type} {src : Source σ} {Due : Bytes → σ → Prop}, src.Supplies Due →
      Reader.Gives Due (x.reply src) (m.handle body).1 true y [] true) :
    (x.run (Hosted.network pace) p).1 = y ∧
      (x.run (Hosted.network pace) p).2.Quiet (m.handle body).2 := by
  have hattempt := x.attempt_hosted h pace hbody hline hreply
  rcases x.run_cases (Hosted.network pace) p with ⟨hrun, -⟩ | ⟨e, he, hallows, -⟩
  · rw [hrun]
    exact hattempt
  · rw [RetryMode.allows, hy e (hattempt.1.symm.trans he)] at hallows
    cases hallows

end Exchange

/-! ## Operations -/

/-- The line of a request is taken apart by the node. -/
theorem Master.handle_body {r : Request} (h : ∀ b ∈ r.pieces, Contained b) (m : Master) :
    m.handle (joinWith fieldSeparator r.pieces) =
      m.perform r.opcode (r.fields.map Field.bytes) := by
  rw [handle, splitOn_joinWith (fun b hb => (h b hb).1) (List.cons_ne_nil _ _)]
  exact respond_digits m _ _

/-- **An operation on a quiet pool comes to what the reply of the node says**, and the node has
performed it once. -/
theorem Operation.run_hosted {α : Type} {m : Master} {c : Client Hosted} {op : Operation α}
    {r : Request} {y : Except ClientError α} (h : c.pool.Quiet m) (pace : Pace)
    (hv : op.isVoid = false) (hr : op.request c.profile = .ok r)
    (hy : ∀ e, y = .error e → e.isTransient = false)
    (hreply : ∀ {σ : Type} {src : Source σ} {Due : Bytes → σ → Prop}, src.Supplies Due →
      Reader.Gives Due (op.reply c.profile src) (m.perform r.opcode (r.fields.map Field.bytes)).1
        true y [] true) :
    (op.run (Hosted.network pace) c).1 = y.bind op.conclude ∧
      (op.run (Hosted.network pace) c).2.pool.Quiet
        (m.perform r.opcode (r.fields.map Field.bytes)).2 := by
  have hpieces := contained_pieces hr
  have hrun := (op.exchange c.profile r).run_hosted h pace (Request.lineEnd_notMem_body hpieces)
    r.line_eq hy (by rw [Master.handle_body hpieces]; exact hreply)
  rw [Master.handle_body hpieces] at hrun
  rw [result_run hv hr, pool_run hv hr, hrun.1]
  exact ⟨rfl, hrun.2⟩

end TagStore
