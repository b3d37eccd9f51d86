import TagStore.Network.Basic
import TagStore.Wire.Tap
import TagStore.Proofs.Wire.AtHand

/-!
# Networks that keep a record

`Network.recorded` is a network that notes whatever passes over it: each connection made, and the
bytes of each write and of each read, the latest first. It answers as the network itself does. What
was sent and received on one connection so far is read off the record (`sent`, `received`), and so
is the order of all writes (`writes`).
-/

namespace TagStore

/-- What passes over a network. -/
inductive Passage
  | opened (link : Nat)
  | wrote (link : Nat) (b : Bytes)
  | read (link : Nat) (b : Bytes)
deriving Repr, DecidableEq

namespace Passage

/-- The connection that is opened or used. -/
def link : Passage → Nat
  | opened k | wrote k _ | read k _ => k

/-- The bytes written to a connection. -/
def sentOn (k : Nat) : Passage → Bytes
  | wrote j b => if j = k then b else []
  | opened _ | read _ _ => []

/-- The bytes read from a connection. -/
def receivedOn (k : Nat) : Passage → Bytes
  | read j b => if j = k then b else []
  | opened _ | wrote _ _ => []

/-- A write, as its connection and its bytes. -/
def write? : Passage → Option (Nat × Bytes)
  | wrote k b => some (k, b)
  | opened _ | read _ _ => none

end Passage

/-- What passed over a network, the latest first. -/
abbrev Record := List Passage

namespace Record

variable {k : Nat} {new old : Record}

/-- The bytes written to a connection. -/
def sent (k : Nat) (log : Record) : Bytes := log.reverse.flatMap (·.sentOn k)

/-- The bytes read from a connection. -/
def received (k : Nat) (log : Record) : Bytes := log.reverse.flatMap (·.receivedOn k)

/-- The writes in their order, each with its connection. -/
def writes (log : Record) : List (Nat × Bytes) := log.reverse.filterMap Passage.write?

/-- Whether a connection was opened or used. -/
def Mentions (log : Record) (k : Nat) : Prop := ∃ e ∈ log, e.link = k

theorem sent_append (k : Nat) (new old : Record) :
    sent k (new ++ old) = sent k old ++ sent k new := by
  simp [sent]

theorem received_append (k : Nat) (new old : Record) :
    received k (new ++ old) = received k old ++ received k new := by
  simp [received]

theorem writes_append (new old : Record) : writes (new ++ old) = writes old ++ writes new := by
  simp [writes]

theorem mentions_append : Mentions (new ++ old) k ↔ Mentions new k ∨ Mentions old k := by
  simp only [Mentions, List.mem_append, or_and_right, exists_or]

theorem not_mentions_nil : ¬Mentions [] k := by simp [Mentions]

theorem sent_eq_nil {log : Record} (h : ¬Mentions log k) : sent k log = [] := by
  apply List.flatMap_eq_nil_iff.2
  intro e he
  have hk : e.link ≠ k := fun hk => h ⟨e, List.mem_reverse.1 he, hk⟩
  cases e with
  | wrote j b => exact if_neg hk
  | opened | read => rfl

theorem received_eq_nil {log : Record} (h : ¬Mentions log k) : received k log = [] := by
  apply List.flatMap_eq_nil_iff.2
  intro e he
  have hk : e.link ≠ k := fun hk => h ⟨e, List.mem_reverse.1 he, hk⟩
  cases e with
  | read j b => exact if_neg hk
  | opened | wrote => rfl

/-- Where nothing was written, nothing was sent on any connection. -/
theorem sent_eq_nil_of_writes {log : Record} (h : log.writes = []) : sent k log = [] := by
  apply List.flatMap_eq_nil_iff.2
  intro e he
  have hn := List.filterMap_eq_nil_iff.1 h e he
  cases e with
  | wrote j b => cases hn
  | opened | read => rfl

/-- A record of what passes over one connection. -/
def Within (k : Nat) (log : Record) : Prop := ∀ e ∈ log, e.link = k

theorem not_mentions_of_within {log : Record} {j : Nat} (h : Within k log) (hj : j ≠ k) :
    ¬Mentions log j := fun ⟨e, he, hl⟩ => hj (hl.symm.trans (h e he))

end Record

/-- The state of a network together with what passed over it. -/
structure Recorded (ω : Type) where
  state : ω
  log : Record

/-- The bytes of a write that a network took. -/
def Written.taken (offered : Bytes) : Written → Bytes
  | accepted n => offered.take n
  | failed _ | nothing => []

namespace Network

variable {ω : Type}

/-- A network that notes what passes over it. -/
def recorded (net : Network ω) : Network (Recorded ω) where
  now w := net.now w.state
  wait d w := { w with state := net.wait d w.state }
  dial addr w :=
    match net.dial addr w.state with
    | (.connected link, s) => (.connected link, ⟨s, .opened link :: w.log⟩)
    | (.failed e, s) => (.failed e, ⟨s, w.log⟩)
    | (.nothing, s) => (.nothing, ⟨s, w.log⟩)
  reach addr w := net.reach addr w.state
  write link b w :=
    let (x, s) := net.write link b w.state
    (x, ⟨s, .wrote link (x.taken b) :: w.log⟩)
  read link n w :=
    let (x, s) := net.read link n w.state
    (x, ⟨s, .read link x.taken :: w.log⟩)
  peek link w := net.peek link w.state
  close link w := { w with state := net.close link w.state }
  budget link w := net.budget link w.state
  read_budget link n w := net.read_budget link n w.state
  bytes_budget link n w b h := net.bytes_budget link n w.state b h
  wait_budget link d w := net.wait_budget link d w.state

/-- What a write to a connection leaves on record. -/
theorem log_write_sink (net : Network ω) (link : Nat) (limit : Duration) (b : Bytes)
    (w : Recorded ω) :
    (((net.recorded.sink link limit).write b w).2).log =
      .wrote link (((net.recorded.sink link limit).write b w).1.taken b) :: w.log := by
  simp only [sink, recorded]
  split <;> rename_i h
  · obtain ⟨h₁, h₂⟩ := Prod.mk.inj h
    rw [h₁] at h₂
    rw [← h₂]
  · rw [Prod.mk.injEq] at h
    simp [← h.1, ← h.2]

/-- What a read from a connection leaves on record. -/
theorem log_read_source (net : Network ω) (link : Nat) (limit : Duration) (peer : Option String)
    (n : Nat) (w : Watched (Recorded ω)) :
    (((net.recorded.source link limit).watched peer).read n w).2.state.log =
      .read link (((net.recorded.source link limit).watched peer).read n w).1.taken ::
        w.state.log := by
  rcases hx : net.read link n w.state.state with ⟨x, s⟩
  cases x <;> simp [Source.watched, source, recorded, hx, Received.taken]

/-- Reads from a connection leave nothing else on record. -/
theorem log_brings {net : Network ω} {link : Nat} {limit : Duration} {peer : Option String}
    {n : Nat} {w w' : Watched (Recorded ω)} {b : Bytes}
    (h : ((net.recorded.source link limit).watched peer).Brings n w b w') :
    ∃ reads : Record, w'.state.log = reads ++ w.state.log ∧ reads.Within link ∧
      reads.writes = [] ∧ reads.received link = b := by
  induction h with
  | refl => exact ⟨[], rfl, by simp [Record.Within], rfl, rfl⟩
  | @read s' s'' b x _ hr ih =>
    obtain ⟨reads, hl, hw, hn, hb⟩ := ih
    have hlog := log_read_source net link limit peer n s'
    rw [hr] at hlog
    refine ⟨.read link x.taken :: reads, by rw [hlog, hl]; rfl, ?_, ?_, ?_⟩
    · simpa [Record.Within, Passage.link] using hw
    · simpa [Record.writes, Passage.write?] using hn
    · rw [← hb]
      simp [Record.received, Passage.receivedOn]

end Network

end TagStore
