import TagStore.Proofs.Client.Accounting
import TagStore.Proofs.Client.Ambiguity
import TagStore.Proofs.Client.Attribution

/-!
# The connection of a second attempt

A second attempt takes its connection out of the pool as the first does. The first has closed the
connection that it failed on, and the next one in the pool is taken if it looks usable; only where
there is none such is a new one opened (`Operation.retried_connection`). A pool that keeps one
connection at most therefore has every second attempt made on a new one, and so it is for a client
whose operations come one after the other, as none of them leaves more than one connection behind
(`Client.Turns.retried_afresh`). With two kept, a second attempt may meet the fate of the first
(`Operation.retried_on_kept`).
-/

namespace TagStore

variable {ω α : Type} {net : Network ω}

/-- Whether a connection was opened later than a pool was in a state. -/
def Connection.OpenedAfter (c : Connection) (p : Pool ω) : Prop := p.serial < c.serial

instance (c : Connection) (p : Pool ω) : Decidable (c.OpenedAfter p) :=
  inferInstanceAs (Decidable (p.serial < c.serial))

/-! ## What an attempt leaves in the pool -/

/-- Taking a connection out leaves the others that are kept. -/
theorem Pool.idle_acquire (net : Network ω) (p : Pool ω) :
    (p.acquire net).2.idle = p.idle.tail := by
  have ha := Pool.acquired net p
  generalize p.acquire net = y at ha ⊢
  cases ha with
  | kept hi hb =>
    rw [hi]
    exact congrArg Books.idle hb
  | opened hb _ => exact congrArg Books.idle hb
  | failed hb => exact congrArg Books.idle hb

theorem Pool.serial_acquire (net : Network ω) (p : Pool ω) :
    p.serial ≤ (p.acquire net).2.serial := by
  have ha := Pool.acquired net p
  generalize p.acquire net = y at ha ⊢
  cases ha with
  | kept _ hb => exact Nat.le_of_eq (congrArg Books.serial hb).symm
  | @opened _ p' hb _ =>
    have hs : p'.serial = p.serial + 1 := congrArg Books.serial hb
    exact hs ▸ Nat.le_succ p.serial
  | failed hb => exact Nat.le_of_eq (congrArg Books.serial hb).symm

theorem Pool.head?_of_ready {p : Pool ω} {c : Connection} (h : p.ready? net = some c) :
    p.idle.head? = some c := (Option.filter_eq_some_iff.1 h).1

theorem Pool.ready?_of_idle_nil {p : Pool ω} (h : p.idle = []) : p.ready? net = none := by
  rw [ready?, h]
  rfl

/-- The connection kept longest is taken if it can be used. -/
theorem Pool.acquire_of_ready {p : Pool ω} {c : Connection} (h : p.ready? net = some c) :
    (p.acquire net).1 = .ok c := by
  rcases p.acquire_cases net with ⟨k, _, -, hready, ha⟩ | ⟨hready, -⟩
  · rw [ha, Option.some.inj (h.symm.trans hready)]
  · cases h.symm.trans hready

/-- A new connection is opened just if the one kept longest cannot be used. -/
theorem Pool.openedAfter_acquire {p : Pool ω} {c : Connection} (h : (p.acquire net).1 = .ok c)
    (hs : ∀ k ∈ p.idle, k.serial ≤ p.serial) :
    c.OpenedAfter p ↔ p.ready? net = none := by
  rcases p.acquire_cases net with ⟨k, rest, hidle, hready, ha⟩ | ⟨hready, ho⟩
  · rw [ha] at h
    cases h
    have hk := hs c (hidle ▸ List.mem_cons_self)
    simp [Connection.OpenedAfter, hready, hk]
  · rcases hy : p.acquire net with ⟨y, p'⟩
    rw [hy] at ho h
    cases ho with
    | failed => cases h
    | opened _ hserial =>
      cases h
      exact iff_of_true (Nat.lt_of_lt_of_eq (Nat.lt_succ_self _) hserial.symm) hready

namespace Exchange

/-- A connection that was used is closed or kept, and always closed if the attempt failed. -/
theorem books_onConnection (net : Network ω) (x : Exchange α) (c : Connection) (p : Pool ω) :
    (x.onConnection net c p).2.books = { p.books with live := p.live - 1 } ∨
      (∃ a, (x.onConnection net c p).1 = .ok a) ∧
        ∃ c', (x.onConnection net c p).2.books = { p.books with idle := p.idle ++ [c'] } := by
  have hdestroy : ∀ (c' : Connection) {q : Pool ω}, q.books = p.books →
      (q.destroy net c').books = { p.books with live := p.live - 1 } := by
    intro c' q hq
    have hlive : q.live = p.live := congrArg Pool.Books.live hq
    rw [Pool.books_destroy, hq, hlive]
  rw [onConnection]
  rcases hs : p.send net c x.request with ⟨e | ⟨⟨⟩⟩, p₁⟩
  · exact .inl (hdestroy c (congrArg (·.2.books) hs).symm)
  · have hsent : p₁.books = p.books := (congrArg (·.2.books) hs).symm
    simp only
    rcases hr : p₁.receive net c fun src r => x.reply src r with ⟨e | a, c', p₂⟩
    · exact .inl (hdestroy c' ((congrArg (·.2.2.books) hr).symm.trans hsent))
    · have hread : p₂.books = p.books := (congrArg (·.2.2.books) hr).symm.trans hsent
      have hidle : p₂.idle = p.idle := congrArg Pool.Books.idle hread
      have hlive : p₂.live = p.live := congrArg Pool.Books.live hread
      rw [← hread, ← hidle, ← hlive]
      rcases Pool.books_recycle net c' p₂ with hb | ⟨hb, -⟩
      · exact .inl hb
      · exact .inr ⟨⟨a, rfl⟩, c', hb⟩

theorem idle_onConnection (net : Network ω) (x : Exchange α) (c : Connection) (p : Pool ω) :
    (x.onConnection net c p).2.idle = p.idle ∨
      (∃ a, (x.onConnection net c p).1 = .ok a) ∧
        ∃ c', (x.onConnection net c p).2.idle = p.idle ++ [c'] :=
  (x.books_onConnection net c p).imp (congrArg Pool.Books.idle)
    fun ⟨ha, c', hb⟩ => ⟨ha, c', congrArg Pool.Books.idle hb⟩

theorem serial_onConnection (net : Network ω) (x : Exchange α) (c : Connection) (p : Pool ω) :
    (x.onConnection net c p).2.serial = p.serial := by
  rcases x.books_onConnection net c p with hb | ⟨-, _, hb⟩ <;>
    exact congrArg Pool.Books.serial hb

theorem attempt_of_acquire {x : Exchange α} {p : Pool ω} {c : Connection}
    (h : (p.acquire net).1 = .ok c) :
    x.attempt net p = x.onConnection net c (p.acquire net).2 := by
  rw [attempt]
  rcases hq : p.acquire net with ⟨y, p₁⟩
  rw [hq] at h
  cases h
  rfl

/-- An attempt keeps one connection more than it leaves, if it goes well, and otherwise none. -/
theorem idle_attempt (net : Network ω) (x : Exchange α) (p : Pool ω) :
    (x.attempt net p).2.idle = p.idle.tail ∨
      (∃ a, (x.attempt net p).1 = .ok a) ∧
        ∃ c', (x.attempt net p).2.idle = p.idle.tail ++ [c'] := by
  have hi := Pool.idle_acquire net p
  rw [attempt]
  rcases hq : p.acquire net with ⟨e | c, p₁⟩ <;> rw [hq] at hi
  · exact .inl hi
  · rw [← hi]
    exact x.idle_onConnection net c p₁

theorem serial_attempt (net : Network ω) (x : Exchange α) (p : Pool ω) :
    p.serial ≤ (x.attempt net p).2.serial := by
  have hs := Pool.serial_acquire net p
  rw [attempt]
  rcases hq : p.acquire net with ⟨e | c, p₁⟩ <;> rw [hq] at hs
  · exact hs
  · exact hs.trans_eq (x.serial_onConnection net c p₁).symm

theorem idle_of_attempt_error {x : Exchange α} {p : Pool ω} {e : ClientError}
    (h : (x.attempt net p).1 = .error e) : (x.attempt net p).2.idle = p.idle.tail := by
  rcases x.idle_attempt net p with hi | ⟨⟨a, ha⟩, -⟩
  · exact hi
  · cases h.symm.trans ha

/-- An exchange leaves one connection, or no more than there were. -/
theorem length_idle_run (net : Network ω) (x : Exchange α) (p : Pool ω) :
    (x.run net p).2.idle.length ≤ max 1 p.idle.length := by
  have hattempt : ∀ q : Pool ω, (x.attempt net q).2.idle.length ≤ q.idle.tail.length + 1 := by
    intro q
    rcases x.idle_attempt net q with hi | ⟨-, c', hi⟩ <;> rw [hi]
    · exact Nat.le_succ _
    · rw [List.length_append, List.length_singleton]
  have htail : ∀ cs : List Connection, cs.tail.length + 1 ≤ max 1 cs.length := by
    intro cs
    cases cs with
    | nil => decide
    | cons c cs => exact Nat.le_max_right _ _
  rcases x.run_cases net p with ⟨hx, -⟩ | ⟨e, he, -, hx⟩ <;> rw [hx]
  · exact (hattempt p).trans (htail _)
  · refine (hattempt _).trans ?_
    rw [idle_of_attempt_error he]
    exact (Nat.succ_le_succ (List.tail_sublist _).length_le).trans (htail _)

/-- Two attempts of an exchange: the first fails, and the second starts from what it leaves. -/
theorem of_trials {x : Exchange α} {p : Pool ω} {t₁ t₂ : Trial ω α}
    (h : x.trials net p = [t₁, t₂]) :
    (∃ e, (x.attempt net p).1 = .error e) ∧ t₂.before = (x.attempt net p).2 ∧
      x.attempt net t₂.before = (t₂.result, t₂.after) ∧ x.run net p = (t₂.result, t₂.after) := by
  rcases x.trials_cases net p with ⟨ht, -⟩ | ⟨he, ht, hr⟩
  · cases h.symm.trans ht
  · cases h.symm.trans ht
    exact ⟨he, rfl, rfl, hr⟩

theorem trials_of_allows {x : Exchange α} {p : Pool ω} {e : ClientError}
    (h : (x.attempt net p).1 = .error e) (he : x.mode.allows e = true) :
    x.trials net p = [⟨p, (x.attempt net p).1, (x.attempt net p).2⟩,
      ⟨(x.attempt net p).2, (x.attempt net (x.attempt net p).2).1,
        (x.attempt net (x.attempt net p).2).2⟩] := by
  rw [trials, h]
  exact if_pos he

/-- Where no more than one connection is kept, a second attempt is made on a new one. -/
theorem openedAfter_of_trials {x : Exchange α} {p : Pool ω} {t₁ t₂ : Trial ω α} {c : Connection}
    (h : x.trials net p = [t₁, t₂]) (hc : (t₂.before.acquire net).1 = .ok c)
    (hone : p.idle.length ≤ 1) : c.OpenedAfter t₂.before := by
  obtain ⟨⟨e, he⟩, hbefore, -⟩ := of_trials h
  have hidle : t₂.before.idle = [] := by
    rw [hbefore, idle_of_attempt_error he, ← List.length_eq_zero_iff, List.length_tail]
    omega
  refine (Pool.openedAfter_acquire hc fun k hk => ?_).2 (Pool.ready?_of_idle_nil hidle)
  rw [hidle] at hk
  cases hk

end Exchange

/-! ## Second attempts -/

section

variable {settings : PoolSettings} {watched : Bool} {registry : Registry} {w : ω}
  {counts : List Nat} {p : Pool ω} {held : List Connection} {r : Request}
  {t₁ t₂ : Exchange.Trial ω α} {c : Connection}

/-- **The connection of a second attempt** is the next of those kept, if it can be used, and
otherwise one that is opened after the first attempt has failed; so it is where no more than one is
kept. -/
theorem Operation.retried_connection
    (h : Pool.Runs net (.empty settings watched registry w) counts p held) (op : Operation α)
    (profile : Profile) (ht : (op.exchange profile r).trials net p = [t₁, t₂])
    (hc : (t₂.before.acquire net).1 = .ok c) :
    (op.isVoid = false → op.request profile = .ok r →
      (op.run net ⟨profile, p⟩).2.pool = t₂.after) ∧
    (t₂.result, t₂.after) =
      (op.exchange profile r).onConnection net c (t₂.before.acquire net).2 ∧
    t₂.before.idle = p.idle.tail ∧
    (∀ k ∈ p.idle ++ held, k.serial ≤ t₂.before.serial) ∧
    (c.OpenedAfter t₂.before ↔ t₂.before.ready? net = none) ∧
    (∀ k, t₂.before.ready? net = some k → c = k ∧ p.idle[1]? = some k) ∧
    (p.idle.length ≤ 1 → c.OpenedAfter t₂.before) := by
  obtain ⟨⟨e, he⟩, hbefore, hattempt, hrun⟩ := Exchange.of_trials ht
  have hempty := Pool.Books.Exact.of_empty settings watched registry w
  obtain ⟨_, -, hruns⟩ := (op.exchange profile r).runs_attempt h
  have hopened := (hruns.exact hempty rfl).1.opened
  have hidle := Exchange.idle_of_attempt_error he
  rw [← hbefore] at hopened hidle
  have hiff : c.OpenedAfter t₂.before ↔ t₂.before.ready? net = none :=
    Pool.openedAfter_acquire hc fun k hk => hopened k (List.mem_append_left _ hk)
  refine ⟨fun hv hr => (Operation.pool_run hv hr).trans (congrArg Prod.snd hrun),
    hattempt.symm.trans (Exchange.attempt_of_acquire hc), hidle, fun k hk => ?_, hiff,
    fun k hk => ⟨?_, ?_⟩, Exchange.openedAfter_of_trials ht hc⟩
  · have hserial := (op.exchange profile r).serial_attempt net p
    exact ((h.exact hempty rfl).1.opened k hk).trans (hbefore ▸ hserial)
  · exact Except.ok.inj (hc.symm.trans (Pool.acquire_of_ready hk))
  · have hhead := Pool.head?_of_ready hk
    rwa [hidle, List.head?_tail] at hhead

end

/-! ## One and two connections kept -/

/-- A pool on a network that follows a script. -/
def Pool.scripted (replies : List Bytes) : Pool (List Bytes × Bytes) :=
  .empty {} false .untried (replies, [])

/-- A connection of such a pool. -/
def Pool.scriptedLink (link node : Nat) (address : String) (serial : Nat) : Connection where
  link := link
  node := node
  address := address
  serial := serial
  expiresAt := 300000000000
  buffer := .standard

/-- What a server says of its version. -/
def bannerLine : Bytes := Bytes.ofString "999,VERSION okuyama-1.2\n"

/-- Asks for the version. -/
def Exchange.ofVersion : Exchange String :=
  Operation.version.exchange ⟨.base64, .standard, none⟩ Profile.version

namespace Pool

/-- A pool that keeps one connection, on which no reply comes any more. A reply would come on the
next. -/
def lone : Pool (List Bytes × Bytes) :=
  ((scripted [[], bannerLine]).acquire .scripted).2.recycle .scripted (scriptedLink 1 0 "a:1" 1)

theorem runs_lone : Runs .scripted (scripted [[], bannerLine]) [1, 1, 0] lone [] := by
  have h₁ : ((scripted [[], bannerLine]).acquire .scripted).1 = .ok (scriptedLink 1 0 "a:1" 1) := by
    decide +kernel
  have hlive : lone.live = 1 ∧ ((scripted [[], bannerLine]).acquire .scripted).2.live = 1 := by
    decide +kernel
  have h : Runs .scripted (scripted [[], bannerLine])
      [lone.live, ((scripted [[], bannerLine]).acquire .scripted).2.live, 0] lone [] :=
    (Runs.start.step (.acquire h₁)).step (.recycle _ [] _ [])
  rwa [hlive.1, hlive.2] at h

/-- A pool with two connections out. -/
def lent : Pool (List Bytes × Bytes) :=
  ((scripted [[], [], bannerLine]).acquire .scripted).2.acquire .scripted |>.2

/-- The same pool when both have come back. No reply comes on either any more. -/
def paired : Pool (List Bytes × Bytes) :=
  (lent.recycle .scripted (scriptedLink 2 0 "a:1" 1)).recycle .scripted (scriptedLink 1 1 "b:2" 2)

theorem runs_paired :
    ∃ counts, Runs .scripted (scripted [[], [], bannerLine]) counts paired [] := by
  have h₁ : ((scripted [[], [], bannerLine]).acquire .scripted).1 =
      .ok (scriptedLink 2 0 "a:1" 1) := by decide +kernel
  have h₂ : (((scripted [[], [], bannerLine]).acquire .scripted).2.acquire .scripted).1 =
      .ok (scriptedLink 1 1 "b:2" 2) := by decide +kernel
  have hlent := (Runs.start.step (.acquire h₁)).step (.acquire h₂)
  exact ⟨_, (hlent.step (.recycle _ [scriptedLink 1 1 "b:2" 2] _ [])).step (.recycle _ [] _ [])⟩

end Pool

/-- Where one connection is kept and fails, the second attempt is made on a new one. -/
theorem Operation.retried_connection_lone :
    Pool.lone.idle = [Pool.scriptedLink 1 0 "a:1" 1] ∧
    ∃ t₁ t₂, Exchange.ofVersion.trials .scripted Pool.lone = [t₁, t₂] ∧
      (t₂.before.acquire .scripted).1 = .ok (Pool.scriptedLink 0 1 "b:2" 2) ∧
      (Pool.scriptedLink 0 1 "b:2" 2).OpenedAfter t₂.before := by
  have hfails : (Exchange.ofVersion.attempt .scripted Pool.lone).1 =
      .error (.io .response ⟨.unexpectedEof,
        "connection closed before the response was complete"⟩) := by decide +kernel
  have ht := Exchange.trials_of_allows hfails (by decide)
  have hc : ((Exchange.ofVersion.attempt .scripted Pool.lone).2.acquire .scripted).1 =
      .ok (Pool.scriptedLink 0 1 "b:2" 2) := by decide +kernel
  have hidle : Pool.lone.idle = [Pool.scriptedLink 1 0 "a:1" 1] := by decide +kernel
  obtain ⟨-, -, -, -, -, -, hafresh⟩ :=
    Operation.retried_connection Pool.runs_lone .version ⟨.base64, .standard, none⟩ ht hc
  exact ⟨hidle, _, _, ht, hc, hafresh (by rw [hidle]; decide)⟩

/-- **Where two connections are kept, the second attempt is made on the second of them**, and fails
as the first did, though on a new one it would not. -/
theorem Operation.retried_on_kept :
    (∃ counts, Pool.Runs .scripted (.scripted [[], [], bannerLine]) counts Pool.paired []) ∧
    Pool.paired.idle = [Pool.scriptedLink 2 0 "a:1" 1, Pool.scriptedLink 1 1 "b:2" 2] ∧
    ∃ t₁ t₂, Exchange.ofVersion.trials .scripted Pool.paired = [t₁, t₂] ∧
      (t₂.before.acquire .scripted).1 = .ok (Pool.scriptedLink 1 1 "b:2" 2) ∧
      ¬(Pool.scriptedLink 1 1 "b:2" 2).OpenedAfter t₂.before ∧
      t₂.result = .error (.io .response ⟨.unexpectedEof,
        "connection closed before the response was complete"⟩) ∧
      (Exchange.ofVersion.attempt .scripted { t₂.before with idle := [] }).1 =
        .ok "VERSION okuyama-1.2" := by
  have hfails : (Exchange.ofVersion.attempt .scripted Pool.paired).1 =
      .error (.io .response ⟨.unexpectedEof,
        "connection closed before the response was complete"⟩) := by decide +kernel
  have ht := Exchange.trials_of_allows hfails (by decide)
  exact ⟨Pool.runs_paired, by decide +kernel, _, _, ht, by decide +kernel, by decide +kernel,
    by decide +kernel, by decide +kernel⟩

/-! ## One operation after the other -/

namespace Client

/-- A run of a client whose operations come one after the other. In between the network and the
endpoints do as they like. -/
inductive Turns (net : Network ω) (c₀ : Client ω) : Client ω → Prop
  | start : Turns net c₀ c₀
  | operation {α : Type} {c : Client ω} (op : Operation α) :
    Turns net c₀ c → Turns net c₀ (op.run net c).2
  | pause {c : Client ω} (w : ω) (seen : List Traffic) (registry : Registry) :
    Turns net c₀ c → Turns net c₀ { c with pool := { c.pool with net := w, seen, registry } }

/-- An operation leaves one connection, or no more than there were. -/
theorem length_idle_operation (net : Network ω) (op : Operation α) (c : Client ω) :
    (op.run net c).2.pool.idle.length ≤ max 1 c.pool.idle.length := by
  have hran := op.ran net c
  generalize op.run net c = y at hran ⊢
  cases hran with
  | void => exact Nat.le_max_right _ _
  | unwritten => exact Nat.le_max_right _ _
  | @exchanged r _ _ _ _ _ hx =>
    have hrun := (op.exchange c.profile r).length_idle_run net c.pool
    rwa [hx] at hrun

variable {c₀ c : Client ω}

/-- **Operations that come one after the other never keep more than one connection.** -/
theorem Turns.length_idle_le (h : Turns net c₀ c) (h₀ : c₀.pool.idle.length ≤ 1) :
    c.pool.idle.length ≤ 1 := by
  induction h with
  | start => exact h₀
  | operation op _ ih =>
    exact (length_idle_operation net op _).trans (Nat.max_le.2 ⟨Nat.le_refl 1, ih⟩)
  | pause w seen registry _ ih => exact ih

/-- **Where operations come one after the other, each second attempt is made on a new
connection.** -/
theorem Turns.retried_afresh (h : Turns net c₀ c) (h₀ : c₀.pool.idle = []) (op : Operation α)
    {r : Request} {t₁ t₂ : Exchange.Trial ω α} {k : Connection}
    (ht : (op.exchange c.profile r).trials net c.pool = [t₁, t₂])
    (hk : (t₂.before.acquire net).1 = .ok k) : k.OpenedAfter t₂.before :=
  Exchange.openedAfter_of_trials ht hk (h.length_idle_le (by rw [h₀]; exact Nat.zero_le 1))

end Client

end TagStore
