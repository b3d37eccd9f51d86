import TagStore.Client.Pool
import TagStore.Proofs.Network.Recorded

/-!
# What a pool leaves on record

The steps of an attempt over a network that keeps a record: taking a connection out of the pool
opens at most that one, sending writes a part of the line to it or all of it (`send_recorded`),
and receiving only reads from it. Giving a connection back leaves nothing on record.
-/

namespace TagStore

namespace Record

/-- The record of writes to a connection. -/
def ofWrites (k : Nat) (ws : List Bytes) : Record := (ws.map (Passage.wrote k)).reverse

variable {k : Nat} {ws : List Bytes}

theorem within_ofWrites : (ofWrites k ws).Within k := by
  intro e he
  obtain ⟨b, -, rfl⟩ := List.mem_map.1 (List.mem_reverse.1 he)
  rfl

theorem writes_ofWrites : (ofWrites k ws).writes = ws.map (k, ·) := by
  simp [writes, ofWrites, List.filterMap_map, Function.comp_def, Passage.write?]

theorem sent_ofWrites : (ofWrites k ws).sent k = ws.flatten := by
  simp [sent, ofWrites, List.flatMap_map, Passage.sentOn, List.flatMap_id']

theorem received_ofWrites : (ofWrites k ws).received k = [] := by
  simp [received, ofWrites, List.flatMap_map, Passage.receivedOn]

end Record

variable {ω : Type} {net : Network ω}

/-! ## Sending -/

/-- The errors of a stream that does not take what it is offered. -/
def ProtocolError.IsLoss (e : ProtocolError) : Prop :=
  (∃ x, e = .io x) ∨ ∃ limit, e = .timeout limit

/-- Offering bytes until all are taken writes them in their order, and all of them only if it goes
well. -/
theorem Request.writeAll_recorded (net : Network ω) (link : Nat) (limit : Duration) (b : Bytes)
    (w : Recorded ω) :
    ∃ ws : List Bytes,
      (writeAll (net.recorded.sink link limit) (some limit) b w).2.log =
        .ofWrites link ws ++ w.log ∧
      ((writeAll (net.recorded.sink link limit) (some limit) b w).1 = .ok () ∧ ws.flatten = b ∨
        (∃ e, (writeAll (net.recorded.sink link limit) (some limit) b w).1 = .error e ∧
          e.IsLoss) ∧ ws.flatten <+: b ∧ ws.flatten ≠ b) := by
  -- a write that takes nothing leaves bytes to be written
  have stuck : ∀ (x : UInt8) (xs : Bytes) (w w' : Recorded ω) (y : Written),
      (net.recorded.sink link limit).write (x :: xs) w = (y, w') → y.taken (x :: xs) = [] →
      w'.log = .ofWrites link [[]] ++ w.log := fun x xs w w' y hw hy => by
    have h := Network.log_write_sink net link limit (x :: xs) w
    rw [hw] at h
    rw [h, hy]
    rfl
  fun_induction writeAll (net.recorded.sink link limit) (some limit) b w with
  | case1 w => exact ⟨[], rfl, .inl ⟨rfl, rfl⟩⟩
  | case2 w x xs w' hw =>
    exact ⟨[[]], stuck x xs w w' _ hw rfl, .inr ⟨⟨_, rfl, .inl ⟨_, rfl⟩⟩, by simp, by simp⟩⟩
  | case3 w x xs n w' hw ih =>
    obtain ⟨ws, hl, h⟩ := ih
    have hlog := Network.log_write_sink net link limit (x :: xs) w
    rw [hw] at hlog
    have ht : (Written.accepted (n + 1)).taken (x :: xs) = x :: xs.take n := rfl
    have hsplit : x :: xs = (x :: xs.take n) ++ xs.drop n := by simp
    refine ⟨(x :: xs.take n) :: ws, ?_, ?_⟩
    · rw [hl, hlog, ht]
      simp [Record.ofWrites]
    · rw [List.flatten_cons]
      rcases h with ⟨ho, hf⟩ | ⟨he, hp, hne⟩
      · exact .inl ⟨ho, by rw [hf, ← hsplit]⟩
      · refine .inr ⟨he, ?_, fun h => hne ?_⟩
        · rw [hsplit]
          exact (List.prefix_append_right_inj _).2 hp
        · rw [hsplit] at h
          exact List.append_cancel_left h
  | case4 w x xs e w' hw =>
    exact ⟨[[]], stuck x xs w w' _ hw rfl, .inr ⟨⟨_, rfl, .inl ⟨_, rfl⟩⟩, by simp, by simp⟩⟩
  | case5 w x xs w' hw =>
    exact ⟨[[]], stuck x xs w w' _ hw rfl, .inr ⟨⟨_, rfl, .inr ⟨_, rfl⟩⟩, by simp, by simp⟩⟩

namespace Pool

/-- **Sending writes the line of a request, or a part of it if it fails**, and nothing else. -/
theorem send_recorded (net : Network ω) (c : Connection) (r : Request) (p : Pool (Recorded ω)) :
    (p.send net.recorded c r).2.idle = p.idle ∧
    ∃ ws : List Bytes,
      (p.send net.recorded c r).2.net.log = .ofWrites c.link ws ++ p.net.log ∧
      ((p.send net.recorded c r).1 = .ok () ∧ ws.flatten = r.line ∨
        (∃ e, (p.send net.recorded c r).1 = .error e ∧ e.IsLoss) ∧
          ws.flatten <+: r.line ∧ ws.flatten ≠ r.line) := by
  refine ⟨rfl, ?_⟩
  obtain ⟨ws, hl, h⟩ := Request.writeAll_recorded net c.link p.settings.readTimeout
    r.line p.net
  refine ⟨ws, ?_⟩
  simp only [send, Request.sendWatched, Request.send]
  rcases hy : Request.writeAll (net.recorded.sink c.link p.settings.readTimeout)
    (some p.settings.readTimeout) r.line p.net with ⟨_ | ⟨⟨⟩⟩, w⟩ <;> rw [hy] at hl h <;>
    exact ⟨hl, h⟩

/-! ## Taking a connection -/

@[simp] theorem net_markOffline (net : Network ω) (i : Nat) (p : Pool ω) :
    (p.markOffline net i).2.net = p.net := rfl

@[simp] theorem idle_markOffline (net : Network ω) (i : Nat) (p : Pool ω) :
    (p.markOffline net i).2.idle = p.idle := rfl

/-- What connecting to an endpoint leaves. -/
theorem connect_recorded (net : Network ω) (i : Nat) (p : Pool (Recorded ω)) :
    (p.connect net.recorded i).2.idle = p.idle ∧
    ((∃ link, (p.connect net.recorded i).1 = .ok link ∧
        (p.connect net.recorded i).2.net.log = .opened link :: p.net.log) ∨
      (∃ text, (p.connect net.recorded i).1 = .error text) ∧
        (p.connect net.recorded i).2.net.log = p.net.log) := by
  rcases h : net.dial (p.registry.address i) p.net.state with ⟨_ | _ | _, s⟩ <;>
    simp [connect, Network.recorded, h]

/-- What a connection that was just taken may be used for. -/
inductive Taken (p : Pool (Recorded ω)) :
    Except ClientError Connection × Pool (Recorded ω) → Prop
  /-- The connection was kept, and nothing is left in its buffer. -/
  | kept {c : Connection} {rest : List Connection} {p' : Pool (Recorded ω)} :
    p.idle = c :: rest → p'.idle = rest → p'.net.log = p.net.log → c.buffer.unread = [] →
    Taken p (.ok c, p')
  /-- The connection was opened. -/
  | opened {c : Connection} {p' : Pool (Recorded ω)} :
    p'.idle = p.idle.tail → p'.net.log = .opened c.link :: p.net.log → c.buffer = .standard →
    Taken p (.ok c, p')
  /-- No endpoint was reached. -/
  | unreachable {n : Nat} {text : String} {p' : Pool (Recorded ω)} :
    p'.idle = p.idle.tail → p'.net.log = p.net.log →
    Taken p (.error (.noAvailableEndpoint n text), p')

theorem openFrom_recorded (left attempts : Nat) (first : Option Nat) (lastError : String)
    (p p₀ : Pool (Recorded ω)) (hi : p.idle = p₀.idle.tail) (hl : p.net.log = p₀.net.log) :
    Taken p₀ (openFrom net.recorded left attempts first lastError p) := by
  induction left generalizing attempts first lastError p with
  | zero => exact .unreachable hi hl
  | succ left ih =>
    rw [openFrom]
    rcases hn : p.nextEndpoint net.recorded with ⟨i, p₁⟩
    have hi₁ : p₁.idle = p.idle := by rw [← (Prod.mk.inj hn).2]; rfl
    have hl₁ : p₁.net = p.net := by rw [← (Prod.mk.inj hn).2]; rfl
    simp only
    split
    · exact .unreachable (hi₁.trans hi) (by rw [hl₁, hl])
    · obtain ⟨hi₂, h⟩ := connect_recorded net i p₁
      rcases hc : p₁.connect net.recorded i with ⟨_ | link, p₂⟩ <;> rw [hc] at hi₂ h
      · have hl₂ : p₂.net.log = p₁.net.log := by simpa using h
        exact ih _ _ _ _ (by rw [idle_markOffline, hi₂, hi₁, hi])
          (by rw [net_markOffline, hl₂, hl₁, hl])
      · have hl₂ : p₂.net.log = .opened link :: p₁.net.log := by simpa using h
        rw [hl₁, hl] at hl₂
        rw [hi₁, hi] at hi₂
        simp only
        split
        · exact .opened hi₂ hl₂ rfl
        · exact .opened hi₂ hl₂ rfl

/-- **Taking a connection** opens at most that one connection, and writes and reads nothing. -/
theorem taken_acquire (net : Network ω) (p : Pool (Recorded ω)) :
    Taken p (p.acquire net.recorded) := by
  rw [acquire]
  split
  · rename_i h
    exact openFrom_recorded _ _ _ _ p p (by rw [h]; rfl) rfl
  · rename_i c rest h
    have hr : rest = p.idle.tail := by rw [h]; rfl
    simp only
    split
    · rename_i hv
      refine .kept h rfl rfl ?_
      rw [liveness] at hv
      split at hv
      · cases hv
      · split at hv
        · cases hv
        · rename_i hu
          exact Decidable.not_not.1 hu
    · exact openFrom_recorded _ _ _ _ _ p hr rfl
    · exact openFrom_recorded _ _ _ _ _ p hr rfl
    · exact openFrom_recorded _ _ _ _ _ p hr rfl

/-! ## Giving a connection back -/

@[simp] theorem log_recycle (c : Connection) (p : Pool (Recorded ω)) :
    (p.recycle net.recorded c).net.log = p.net.log := by
  unfold recycle
  split <;> rfl

/-- A connection that is given back is kept only if nothing is left in its buffer. -/
theorem idle_recycle (net : Network ω) (c : Connection) (p : Pool ω) :
    (p.recycle net c).idle = p.idle ∨
      (p.recycle net c).idle = p.idle ++ [c] ∧ c.buffer.unread = [] := by
  unfold recycle
  split
  · exact .inl rfl
  · rename_i h
    refine .inr ⟨rfl, ?_⟩
    simp only [Bool.or_eq_true, decide_eq_true_eq, not_or, ne_eq] at h
    exact Decidable.not_not.1 h.1.2

end Pool

end TagStore
