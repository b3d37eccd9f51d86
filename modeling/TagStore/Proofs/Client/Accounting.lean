import TagStore.Proofs.Client.Attempt
import TagStore.Proofs.Client.Failover
import TagStore.Proofs.Client.Operation
import Mathlib.Order.Bounds.Basic

/-!
# The books of a pool

A pool and its users together hold every open connection once. A run of a pool takes connections
out, gives them back or closes them, in any order and with any number of them out at once
(`Pool.Runs`); in between the network and the endpoints do as they like. Only three entries in the
books of a pool (`Pool.books`) change on the way: a connection that was kept is used or dropped, a
new one is registered, and one that comes back is kept or closed (`Pool.acquired`).

After every step the books are right (`Pool.Accounts`). An operation of a client is a run that gives
back what it takes, however it ends (`Operation.runs`), so that after it the connections kept are
all the open ones that nobody else has (`Pool.accounts_exact`).
-/

namespace TagStore

variable {ω α : Type} {net : Network ω}

namespace Pool

/-- What a pool knows of its connections. -/
structure Books where
  capacity : Nat
  idle : List Connection
  live : Nat
  peak : Nat
  serial : Nat
  latestPooled : Nat

/-- The books of a pool. -/
def books (p : Pool ω) : Books :=
  ⟨p.settings.maxPoolSize, p.idle, p.live, p.peak, p.serial, p.latestPooled⟩

namespace Books

/-- The connection kept longest is closed, if one is kept. -/
def dropFirst (b : Books) : Books :=
  { b with idle := b.idle.tail, live := if b.idle = [] then b.live else b.live - 1 }

/-- One more connection is open. -/
def register (b : Books) : Books :=
  { b with
    live := b.live + 1
    peak := max b.peak (b.live + 1)
    serial := b.serial + 1
    latestPooled :=
      if b.live + 1 ≤ b.capacity then max b.latestPooled (b.serial + 1) else b.latestPooled }

end Books

variable {p p' : Pool ω} {c : Connection} {held held' : List Connection} {counts : List Nat}

/-! ## What the steps of a pool do to its books -/

@[simp] theorem books_nextEndpoint (net : Network ω) (p : Pool ω) :
    (p.nextEndpoint net).2.books = p.books := rfl

@[simp] theorem books_markOffline (net : Network ω) (i : Nat) (p : Pool ω) :
    (p.markOffline net i).2.books = p.books := rfl

@[simp] theorem books_destroy (net : Network ω) (c : Connection) (p : Pool ω) :
    (p.destroy net c).books = { p.books with live := p.live - 1 } := rfl

@[simp] theorem books_connect (net : Network ω) (i : Nat) (p : Pool ω) :
    (p.connect net i).2.books = p.books := by
  unfold connect
  simp only
  split <;> rfl

/-- Opening a connection. -/
inductive Opened (b : Books) : Except ClientError Connection × Pool ω → Prop
  | opened {c : Connection} {p' : Pool ω} :
    p'.books = b.register → c.serial = b.serial + 1 → Opened b (.ok c, p')
  | failed {e : ClientError} {p' : Pool ω} : p'.books = b → Opened b (.error e, p')

theorem opened_openFrom {b : Books} (hp : p.books = b) (net : Network ω) (left attempts : Nat)
    (first : Option Nat) (lastError : String) :
    Opened b (openFrom net left attempts first lastError p) := by
  induction left generalizing attempts first lastError p with
  | zero => exact .failed hp
  | succ left ih =>
    rw [openFrom]
    have hn := books_nextEndpoint net p
    rcases hnext : p.nextEndpoint net with ⟨i, p₁⟩
    rw [hnext] at hn
    simp only
    split
    · exact .failed (hn.trans hp)
    · have hc := books_connect net i p₁
      rcases hconn : p₁.connect net i with ⟨text | link, p₂⟩ <;> rw [hconn] at hc <;> simp only
      · exact ih (by rw [books_markOffline, hc, hn, hp]) _ _ _
      · have hb : ∀ p₃ : Pool ω, p₃.books = p₂.books →
            Opened b (.ok (register net link i p₃).1, (register net link i p₃).2) := by
          intro p₃ h₃
          have h := h₃.trans (hc.trans (hn.trans hp))
          refine .opened (congrArg Books.register h) ?_
          have hs : p₃.serial = b.serial := congrArg Books.serial h
          rw [← hs]
          rfl
        split
        · exact hb _ rfl
        · exact hb _ rfl

/-- The connection kept longest, if it can be used. -/
def ready? (net : Network ω) (p : Pool ω) : Option Connection :=
  p.idle.head?.filter fun c => p.liveness net c = .ready

/-- **The connection kept longest is taken if it can be used**; otherwise it is closed, if there is
one, and a new one is opened. -/
theorem acquire_cases (net : Network ω) (p : Pool ω) :
    (∃ c rest, p.idle = c :: rest ∧ p.ready? net = some c ∧
      p.acquire net = (.ok c, { p with idle := rest })) ∨
    p.ready? net = none ∧ Opened p.books.dropFirst (p.acquire net) := by
  rw [acquire]
  split
  · rename_i hidle
    refine .inr ⟨by simp [ready?, hidle], opened_openFrom ?_ net _ _ _ _⟩
    simp [Books.dropFirst, books, hidle]
  · rename_i c rest hidle
    have hd : ∀ q : Pool ω, q.books = { p.books with idle := rest } →
        (q.destroy net c).books = p.books.dropFirst := by
      intro q hq
      have hlive : q.live = p.live := congrArg Books.live hq
      rw [books_destroy, hq, hlive]
      simp [Books.dropFirst, books, hidle]
    have hnone : p.liveness net c ≠ .ready → p.ready? net = none := fun h => by
      simp [ready?, hidle, h]
    have hsame : ({ p with idle := rest } : Pool ω).liveness net c = p.liveness net c := rfl
    simp only [hsame]
    split <;> rename_i hl
    · exact .inl ⟨c, rest, hidle, by simp [ready?, hidle, hl], rfl⟩
    · exact .inr ⟨hnone (by rw [hl]; decide), opened_openFrom (hd _ rfl) net _ _ _ _⟩
    · exact .inr ⟨hnone (by rw [hl]; decide), opened_openFrom (hd _ rfl) net _ _ _ _⟩
    · exact .inr ⟨hnone (by rw [hl]; decide), opened_openFrom (hd _ rfl) net _ _ _ _⟩

/-- Taking a connection out of a pool. -/
inductive Acquired (p : Pool ω) : Except ClientError Connection × Pool ω → Prop
  /-- The connection kept longest is taken. -/
  | kept {c : Connection} {rest : List Connection} {p' : Pool ω} :
    p.idle = c :: rest → p'.books = { p.books with idle := rest } → Acquired p (.ok c, p')
  /-- None is kept or the one kept longest is closed, and a new one is opened. -/
  | opened {c : Connection} {p' : Pool ω} :
    p'.books = p.books.dropFirst.register → c.serial = p.serial + 1 → Acquired p (.ok c, p')
  /-- None is kept or the one kept longest is closed, and none can be opened. -/
  | failed {e : ClientError} {p' : Pool ω} :
    p'.books = p.books.dropFirst → Acquired p (.error e, p')

/-- **Taking a connection out comes to one of three ends.** -/
theorem acquired (net : Network ω) (p : Pool ω) : Acquired p (p.acquire net) := by
  rcases p.acquire_cases net with ⟨c, rest, hidle, -, ha⟩ | ⟨-, ho⟩
  · rw [ha]
    exact .kept hidle rfl
  · generalize p.acquire net = y at ho
    cases ho with
    | opened hb hs => exact .opened hb hs
    | failed hb => exact .failed hb

/-- A connection that comes back is closed, or it is kept if it may be and there is room. -/
theorem books_recycle (net : Network ω) (c : Connection) (p : Pool ω) :
    (p.recycle net c).books = { p.books with live := p.live - 1 } ∨
      (p.recycle net c).books = { p.books with idle := p.idle ++ [c] } ∧
        p.idle.length < p.settings.maxPoolSize ∧ c.buffer.unread = [] ∧
        c.serial ≤ p.latestPooled := by
  rw [recycle]
  split
  · exact .inl rfl
  · rename_i h
    simp only [Bool.or_eq_true, decide_eq_true_eq, not_or, Nat.not_lt, Nat.not_le, ne_eq] at h
    obtain ⟨⟨⟨hserial, -⟩, hunread⟩, hroom⟩ := h
    exact .inr ⟨rfl, hroom, Decidable.not_not.1 hunread, hserial⟩

/-! ## Runs -/

/-- One step of a pool, beside the connections that are out. -/
inductive Step (net : Network ω) :
    Pool ω → List Connection → Pool ω → List Connection → Prop
  /-- A connection is taken out. -/
  | acquire {p : Pool ω} {held : List Connection} {c : Connection} :
    (p.acquire net).1 = .ok c → Step net p held (p.acquire net).2 (c :: held)
  /-- No connection can be taken out. -/
  | unavailable {p : Pool ω} {held : List Connection} {e : ClientError} :
    (p.acquire net).1 = .error e → Step net p held (p.acquire net).2 held
  /-- A connection is given back. -/
  | recycle (p : Pool ω) (before : List Connection) (c : Connection) (after : List Connection) :
    Step net p (before ++ c :: after) (p.recycle net c) (before ++ after)
  /-- A connection is closed. -/
  | destroy (p : Pool ω) (before : List Connection) (c : Connection) (after : List Connection) :
    Step net p (before ++ c :: after) (p.destroy net c) (before ++ after)
  /-- A connection that is out is used, which may leave bytes in its buffer. -/
  | use (p : Pool ω) (before : List Connection) (c : Connection) (after : List Connection)
    (buffer : ReadBuffer) :
    Step net p (before ++ c :: after) p (before ++ { c with buffer } :: after)
  /-- Whatever may happen on the network and to the endpoints. -/
  | pause (p : Pool ω) (held : List Connection) (w : ω) (seen : List Traffic)
    (registry : Registry) :
    Step net p held { p with net := w, seen, registry } held

/-- A run of a pool from `p₀` on, with how many connections were open after each of its steps, the
latest first. -/
inductive Runs (net : Network ω) (p₀ : Pool ω) :
    List Nat → Pool ω → List Connection → Prop
  | start : Runs net p₀ [p₀.live] p₀ []
  | step {counts : List Nat} {p p' : Pool ω} {held held' : List Connection} :
    Runs net p₀ counts p held → Step net p held p' held' →
    Runs net p₀ (p'.live :: counts) p' held'

/-! ## The books stay right -/

/-- The books of a pool are right, where `held` are the connections that are out. -/
structure Books.Exact (b : Books) (held : List Connection) : Prop where
  live : b.live = b.idle.length + held.length
  room : b.idle.length ≤ b.capacity
  distinct : ((b.idle ++ held).map (·.serial)).Nodup
  pooled : ∀ c ∈ b.idle, c.buffer.unread = [] ∧ c.serial ≤ b.latestPooled
  opened : ∀ c ∈ b.idle ++ held, c.serial ≤ b.serial
  peak : b.live ≤ b.peak

namespace Books.Exact

variable {b : Books} {before after rest : List Connection}

theorem of_empty (settings : PoolSettings) (watched : Bool) (registry : Registry) (w : ω) :
    (empty settings watched registry w).books.Exact [] where
  live := rfl
  room := Nat.zero_le _
  distinct := List.nodup_nil
  pooled _ hc := absurd hc List.not_mem_nil
  opened _ hc := absurd hc List.not_mem_nil
  peak := Nat.le_refl 0

theorem dropFirst (h : b.Exact held) : b.dropFirst.Exact held := by
  rcases hi : b.idle with _ | ⟨c, rest⟩
  · have hb : b.dropFirst = b := by
      cases b
      cases hi
      rfl
    exact hb.symm ▸ h
  · unfold Books.dropFirst
    rw [hi]
    have hl := h.live
    have hr := h.room
    have hd := h.distinct
    have hp := h.peak
    rw [hi] at hl hr hd
    simp only [List.length_cons] at hl hr
    refine ⟨?_, ?_, (List.nodup_cons.1 hd).2, ?_, ?_, ?_⟩
    · simp only [List.tail_cons, reduceCtorEq, if_false]
      omega
    · exact Nat.le_of_succ_le hr
    · exact fun k hk => h.pooled k (hi ▸ List.mem_cons_of_mem c hk)
    · exact fun k hk => h.opened k (hi ▸ List.mem_cons_of_mem c hk)
    · simp only [reduceCtorEq, if_false]
      omega

theorem register (h : b.Exact held) (hc : c.serial = b.serial + 1) :
    b.register.Exact (c :: held) := by
  have hperm : (b.idle ++ c :: held).Perm (c :: (b.idle ++ held)) := List.perm_middle
  have hnew : ∀ k ∈ b.idle ++ held, k.serial ≠ c.serial := by
    intro k hk he
    have := h.opened k hk
    omega
  refine ⟨?_, h.room, ?_, ?_, ?_, Nat.le_max_right _ _⟩
  · have := h.live
    simp only [Books.register, List.length_cons]
    omega
  · refine (hperm.map _).nodup_iff.2 (List.nodup_cons.2 ⟨?_, h.distinct⟩)
    intro hm
    obtain ⟨k, hk, he⟩ := List.mem_map.1 hm
    exact hnew k hk he
  · intro k hk
    obtain ⟨hu, hs⟩ := h.pooled k hk
    refine ⟨hu, ?_⟩
    simp only [Books.register]
    split
    · exact Nat.le_trans hs (Nat.le_max_left _ _)
    · exact hs
  · intro k hk
    rcases List.mem_cons.1 (hperm.mem_iff.1 hk) with rfl | hk
    · exact Nat.le_of_eq hc
    · exact Nat.le_succ_of_le (h.opened k hk)

theorem take (h : b.Exact held) (hi : b.idle = c :: rest) :
    Exact { b with idle := rest } (c :: held) := by
  have hl := h.live
  have hr := h.room
  have hd := h.distinct
  have ho := h.opened
  rw [hi] at hl hr hd ho
  have hperm : (rest ++ c :: held).Perm (c :: (rest ++ held)) := List.perm_middle
  refine ⟨?_, Nat.le_of_succ_le hr, (hperm.map _).nodup_iff.2 hd, ?_, ?_, h.peak⟩
  · simp only [List.length_cons] at hl ⊢
    omega
  · exact fun k hk => h.pooled k (hi ▸ List.mem_cons_of_mem c hk)
  · exact fun k hk => ho k (hperm.mem_iff.1 hk)

theorem close (h : b.Exact (before ++ c :: after)) :
    Exact { b with live := b.live - 1 } (before ++ after) := by
  have hsub : (b.idle ++ (before ++ after)).Sublist (b.idle ++ (before ++ c :: after)) :=
    ((List.sublist_cons_self c after).append_left before).append_left b.idle
  refine ⟨?_, h.room, h.distinct.sublist (hsub.map _), h.pooled,
    fun k hk => h.opened k (hsub.subset hk), Nat.le_trans (Nat.sub_le _ _) h.peak⟩
  have hl := h.live
  simp only [List.length_append, List.length_cons] at hl ⊢
  omega

theorem keep (h : b.Exact (before ++ c :: after)) (hroom : b.idle.length < b.capacity)
    (hunread : c.buffer.unread = []) (hserial : c.serial ≤ b.latestPooled) :
    Exact { b with idle := b.idle ++ [c] } (before ++ after) := by
  have hperm : (b.idle ++ [c] ++ (before ++ after)).Perm (b.idle ++ (before ++ c :: after)) := by
    rw [List.append_assoc, List.singleton_append]
    exact List.perm_middle.symm.append_left b.idle
  refine ⟨?_, ?_, (hperm.map _).nodup_iff.2 h.distinct, ?_,
    fun k hk => h.opened k (hperm.mem_iff.1 hk), h.peak⟩
  · have hl := h.live
    simp only [List.length_append, List.length_cons, List.length_nil] at hl ⊢
    omega
  · rw [List.length_append]
    exact hroom
  · intro k hk
    rcases List.mem_append.1 hk with hk | hk
    · exact h.pooled k hk
    · rw [List.mem_singleton.1 hk]
      exact ⟨hunread, hserial⟩

theorem use (h : b.Exact (before ++ c :: after)) (buffer : ReadBuffer) :
    b.Exact (before ++ { c with buffer } :: after) := by
  have hserials : (b.idle ++ (before ++ { c with buffer } :: after)).map (·.serial) =
      (b.idle ++ (before ++ c :: after)).map (·.serial) := by
    simp
  refine ⟨?_, h.room, hserials ▸ h.distinct, h.pooled, ?_, h.peak⟩
  · have hl := h.live
    simpa using hl
  · intro k hk
    have hm : k.serial ∈ (b.idle ++ (before ++ c :: after)).map (·.serial) :=
      hserials ▸ List.mem_map_of_mem hk
    obtain ⟨k', hk', he⟩ := List.mem_map.1 hm
    exact he ▸ h.opened k' hk'

end Books.Exact

/-- From one state of the books to the next the peak follows the number of open connections. -/
structure Books.Follows (b b' : Books) : Prop where
  capacity : b'.capacity = b.capacity
  peak : b'.peak = max b'.live b.peak

theorem Books.Exact.follows {b b' : Books} (h : b.Exact held) (hc : b'.capacity = b.capacity)
    (hp : b'.peak = b.peak) (hl : b'.live ≤ b.live) : b.Follows b' :=
  ⟨hc, hp.trans (Nat.max_eq_right (Nat.le_trans hl h.peak)).symm⟩

theorem Books.live_dropFirst (b : Books) : b.dropFirst.live ≤ b.live := by
  unfold Books.dropFirst
  simp only
  split
  · exact Nat.le_refl _
  · exact Nat.sub_le _ _

/-- **A step keeps the books right.** -/
theorem Step.exact (h : Step net p held p' held') (hx : p.books.Exact held) :
    p'.books.Exact held' ∧ p.books.Follows p'.books := by
  cases h with
  | @acquire _ _ hc =>
    rename_i c
    have ha := acquired net p
    rcases hq : p.acquire net with ⟨y, q⟩
    rw [hq] at ha hc
    obtain rfl : y = .ok c := hc
    cases ha with
    | kept hi hb =>
      rw [hb]
      exact ⟨hx.take hi, hx.follows rfl rfl (Nat.le_refl _)⟩
    | opened hb hs =>
      rw [hb]
      exact ⟨hx.dropFirst.register hs, rfl, Nat.max_comm _ _⟩
  | unavailable he =>
    rename_i e
    have ha := acquired net p
    rcases hq : p.acquire net with ⟨y, q⟩
    rw [hq] at ha he
    obtain rfl : y = .error e := he
    cases ha with
    | failed hb =>
      rw [hb]
      exact ⟨hx.dropFirst, hx.follows rfl rfl p.books.live_dropFirst⟩
  | recycle before c after =>
    rcases books_recycle net c p with hb | ⟨hb, hroom, hunread, hserial⟩ <;> rw [hb]
    · exact ⟨hx.close, hx.follows rfl rfl (Nat.sub_le _ _)⟩
    · exact ⟨hx.keep hroom hunread hserial, hx.follows rfl rfl (Nat.le_refl _)⟩
  | destroy before c after =>
    rw [books_destroy]
    exact ⟨hx.close, hx.follows rfl rfl (Nat.sub_le _ _)⟩
  | use before c after buffer => exact ⟨hx.use buffer, hx.follows rfl rfl (Nat.le_refl _)⟩
  | pause w seen registry => exact ⟨hx, hx.follows rfl rfl (Nat.le_refl _)⟩

/-- **A run keeps the books right.** -/
theorem Runs.exact {p₀ : Pool ω} (h : Runs net p₀ counts p held) (h₀ : p₀.books.Exact [])
    (hp : p₀.peak = p₀.live) :
    p.books.Exact held ∧ p.settings.maxPoolSize = p₀.settings.maxPoolSize ∧
      IsGreatest {n | n ∈ counts} p.peak := by
  induction h with
  | start => exact ⟨h₀, rfl, by simp [hp]⟩
  | @step counts p p' held held' hr hs ih =>
    obtain ⟨hx, hcap, hpeak⟩ := ih
    obtain ⟨hx', hf⟩ := hs.exact hx
    refine ⟨hx', hf.capacity.trans hcap, ?_⟩
    have hset : {n | n ∈ p'.live :: counts} = insert p'.live {n | n ∈ counts} :=
      Set.ext fun n => List.mem_cons
    rw [hset, show p'.peak = max p'.live p.peak from hf.peak]
    exact hpeak.insert _

/-! ## What a connection is used for -/

theorem Runs.send {p₀ : Pool ω} (h : Runs net p₀ counts p held) (c : Connection) (r : Request) :
    Runs net p₀ ((p.send net c r).2.live :: counts) (p.send net c r).2 held :=
  h.step (.pause p held _ _ p.registry)

theorem Runs.receive {p₀ : Pool ω} (h : Runs net p₀ counts p (c :: held))
    (read : {σ : Type} → Source σ → Reader σ → α × Reader σ) :
    ∃ counts', counts <:+ counts' ∧
      Runs net p₀ counts' (p.receive net c read).2.2 ((p.receive net c read).2.1 :: held) :=
  ⟨_, (List.suffix_cons _ _).trans (List.suffix_cons _ _),
    (h.step (.use p [] c held _)).step (.pause p _ _ _ p.registry)⟩

end Pool

/-! ## Operations -/

section

variable {p₀ p : Pool ω} {counts : List Nat} {held : List Connection}

theorem Exchange.runs_onConnection (x : Exchange α) {c : Connection}
    (h : Pool.Runs net p₀ counts p (c :: held)) :
    ∃ counts', counts <:+ counts' ∧ Pool.Runs net p₀ counts' (x.onConnection net c p).2 held := by
  have hsent := h.send c x.request
  rw [onConnection]
  rcases hq : p.send net c x.request with ⟨e | ⟨⟨⟩⟩, p₁⟩ <;> rw [hq] at hsent
  · exact ⟨_, (List.suffix_cons _ _).trans (List.suffix_cons _ _),
      hsent.step (.destroy p₁ [] c held)⟩
  · obtain ⟨counts', hc, hread⟩ := hsent.receive fun src r => x.reply src r
    have hc := (List.suffix_cons _ _).trans hc
    simp only
    rcases hy : p₁.receive net c fun src r => x.reply src r with ⟨e | a, c', p₂⟩ <;>
      rw [hy] at hread
    · exact ⟨_, hc.trans (List.suffix_cons _ _), hread.step (.destroy p₂ [] c' held)⟩
    · exact ⟨_, hc.trans (List.suffix_cons _ _), hread.step (.recycle p₂ [] c' held)⟩

/-- **An attempt gives back what it takes,** however it ends. -/
theorem Exchange.runs_attempt (x : Exchange α) (h : Pool.Runs net p₀ counts p held) :
    ∃ counts', counts <:+ counts' ∧ Pool.Runs net p₀ counts' (x.attempt net p).2 held := by
  rw [attempt]
  rcases hq : p.acquire net with ⟨e | c, p₁⟩
  · have hs : Pool.Step net p held (p.acquire net).2 held := .unavailable (congrArg Prod.fst hq)
    rw [hq] at hs
    exact ⟨_, List.suffix_cons _ _, h.step hs⟩
  · have hs : Pool.Step net p held (p.acquire net).2 (c :: held) := .acquire (congrArg Prod.fst hq)
    rw [hq] at hs
    obtain ⟨counts', hc, hr⟩ := x.runs_onConnection (h.step hs)
    exact ⟨counts', (List.suffix_cons _ _).trans hc, hr⟩

theorem Exchange.runs_run (x : Exchange α) (h : Pool.Runs net p₀ counts p held) :
    ∃ counts', counts <:+ counts' ∧ Pool.Runs net p₀ counts' (x.run net p).2 held := by
  rcases x.run_cases net p with ⟨hx, -⟩ | ⟨e, -, -, hx⟩ <;> rw [hx]
  · exact x.runs_attempt h
  · obtain ⟨counts₁, h₁, hr⟩ := x.runs_attempt h
    obtain ⟨counts₂, h₂, hr⟩ := x.runs_attempt hr
    exact ⟨counts₂, h₁.trans h₂, hr⟩

/-- **An operation of a client gives back what it takes,** however it ends. -/
theorem Operation.runs (op : Operation α) {c : Client ω}
    (h : Pool.Runs net p₀ counts c.pool held) :
    ∃ counts', counts <:+ counts' ∧ Pool.Runs net p₀ counts' (op.run net c).2.pool held := by
  have hran := op.ran net c
  generalize op.run net c = y at hran ⊢
  cases hran with
  | void => exact ⟨counts, List.suffix_refl _, h⟩
  | unwritten => exact ⟨counts, List.suffix_refl _, h⟩
  | exchanged profile _ _ hx =>
    obtain ⟨counts', hc, hr⟩ := (op.exchange c.profile _).runs_run h
    rw [hx] at hr
    exact ⟨counts', hc, hr⟩

end

namespace Pool

/-- **The books of a pool are exact.** After every run the connections open are those kept and those
that are out, no two of which have the same serial number; no more are kept than there is room for,
and all of them with their last reply read to the end and opened while there was room; and the peak
is the greatest number of connections open so far. An operation of a client, whether it succeeds or
fails, continues the run and leaves out what was out before it: nothing, if operations are all that
uses the pool, and then the connections open are those kept. -/
theorem accounts_exact (net : Network ω) (settings : PoolSettings) (watched : Bool)
    (registry : Registry) (w : ω) {counts : List Nat} {p : Pool ω} {held : List Connection}
    (h : Runs net (.empty settings watched registry w) counts p held) :
    p.live = p.idle.length + held.length ∧
    p.idle.length ≤ settings.maxPoolSize ∧
    IsGreatest {n | n ∈ counts} p.peak ∧
    ((p.idle ++ held).map (·.serial)).Nodup ∧
    (∀ c ∈ p.idle, c.buffer.unread = [] ∧ c.serial ≤ p.latestPooled) ∧
    ∀ {α : Type} (op : Operation α) (profile : Profile),
      (∃ counts', counts <:+ counts' ∧ Runs net (.empty settings watched registry w) counts'
        (op.run net ⟨profile, p⟩).2.pool held) ∧
      (op.run net ⟨profile, p⟩).2.pool.live =
        (op.run net ⟨profile, p⟩).2.pool.idle.length + held.length ∧
      (held = [] → (op.run net ⟨profile, p⟩).2.pool.live =
        (op.run net ⟨profile, p⟩).2.pool.idle.length) := by
  have hempty := Books.Exact.of_empty settings watched registry w
  obtain ⟨hx, hcap, hp⟩ := h.exact hempty rfl
  refine ⟨hx.live, hcap ▸ hx.room, hp, hx.distinct, hx.pooled, fun op profile => ?_⟩
  obtain ⟨counts', hc, hr⟩ := op.runs (c := ⟨profile, p⟩) h
  have hlive := (hr.exact hempty rfl).1.live
  refine ⟨⟨counts', hc, hr⟩, hlive, fun hheld => ?_⟩
  subst hheld
  exact hlive

/-! ## More connections than there is room for -/

/-- A pool with room for one connection. -/
def narrow : Pool Unit := .empty { maxPoolSize := 1 } false Registry.untried ()

/-- The connections that it opens first and second, where only the first endpoint can be reached. -/
def narrowLink (serial : Nat) : Connection where
  link := 0
  node := 0
  address := "a:1"
  serial := serial
  expiresAt := 300000000000
  buffer := .standard

/-- The same pool when two connections are out. -/
def crowded : Pool Unit := ((narrow.acquire (.only "a:1")).2.acquire (.only "a:1")).2

theorem runs_crowded :
    Runs (.only "a:1") narrow [2, 1, 0] crowded [narrowLink 2, narrowLink 1] := by
  have h₁ : (narrow.acquire (.only "a:1")).1 = .ok (narrowLink 1) := by decide +kernel
  have h₂ : ((narrow.acquire (.only "a:1")).2.acquire (.only "a:1")).1 = .ok (narrowLink 2) := by
    decide +kernel
  have hlive : (narrow.acquire (.only "a:1")).2.live = 1 ∧ crowded.live = 2 := by decide +kernel
  have h : Runs (.only "a:1") narrow [crowded.live, (narrow.acquire (.only "a:1")).2.live, 0]
      crowded [narrowLink 2, narrowLink 1] := (Runs.start.step (.acquire h₁)).step (.acquire h₂)
  rwa [hlive.1, hlive.2] at h

/-- The same pool after both have come back. -/
def relieved : Pool Unit :=
  (crowded.recycle (.only "a:1") (narrowLink 1)).recycle (.only "a:1") (narrowLink 2)

theorem runs_relieved : Runs (.only "a:1") narrow [1, 2, 2, 1, 0] relieved [] := by
  have hlive : (crowded.recycle (.only "a:1") (narrowLink 1)).live = 2 ∧ relieved.live = 1 := by
    decide +kernel
  have h : Runs (.only "a:1") narrow
      [relieved.live, (crowded.recycle (.only "a:1") (narrowLink 1)).live, 2, 1, 0] relieved [] :=
    (runs_crowded.step (.recycle _ [narrowLink 2] _ [])).step (.recycle _ [] _ [])
  rwa [hlive.1, hlive.2] at h

/-- Of two connections that come back to a pool with room for one the first is kept, and the second,
which was opened when there was no room, is closed. An operation that then fails leaves as many
connections open as are kept. -/
theorem accounts_relieved :
    relieved.idle = [narrowLink 1] ∧ relieved.live = 1 ∧ relieved.peak = 2 ∧
    IsGreatest {n | n ∈ [1, 2, 2, 1, 0]} relieved.peak ∧
    (Operation.version.run (.only "a:1") ⟨⟨.base64, .standard, none⟩, relieved⟩).2.pool.live =
      (Operation.version.run (.only "a:1")
        ⟨⟨.base64, .standard, none⟩, relieved⟩).2.pool.idle.length := by
  obtain ⟨hlive, -, hpeak, -, -, hop⟩ := accounts_exact (.only "a:1") _ _ _ _ runs_relieved
  have hidle : relieved.idle = [narrowLink 1] := by decide +kernel
  exact ⟨hidle, by rw [hlive, hidle]; rfl, by decide +kernel, hpeak,
    (hop Operation.version ⟨.base64, .standard, none⟩).2.2 rfl⟩

end Pool

end TagStore
