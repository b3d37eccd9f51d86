import TagStore.Proofs.Client.Attempt
import TagStore.Proofs.Client.RequestLine

/-!
# How often a request is delivered

What an operation writes is put on record as transmissions: one for each attempt, each on one
connection and a part of the request's line from its start (`Record.Carries`). A line counts as
delivered when all of it is written, and as a line has one line end, the line ends on record count
the lines delivered (`Record.Carries.lineEnds`).

No operation delivers its line more than twice, and one that must not be repeated never more than
once: not at all where the error says so, and once where there is a result or the error says that
the server may have acted (`Operation.delivered`).
-/

namespace TagStore

open Wire

/-- What is written to a connection in one attempt. -/
structure Transmission where
  link : Nat
  parts : List Bytes

namespace Transmission

/-- The bytes of a transmission. -/
def bytes (t : Transmission) : Bytes := t.parts.flatten

/-- The writes of a transmission. -/
def writes (t : Transmission) : List (Nat × Bytes) := t.parts.map (t.link, ·)

end Transmission

namespace Record

/-- The line ends that were written, to whatever connection. -/
def lineEnds (log : Record) : Nat := (log.writes.flatMap Prod.snd).count lineEnd

/-- Whether the writes are transmissions of a line or of its start, `n` of them of all of it. -/
def Carries (log : Record) (line : Bytes) (n : Nat) : Prop :=
  ∃ ts : List Transmission, log.writes = ts.flatMap (·.writes) ∧ (∀ t ∈ ts, t.bytes <+: line) ∧
    ts.countP (·.bytes = line) = n

variable {log new old : Record} {line : Bytes} {m n : Nat}

theorem carries_of_writes (line : Bytes) (h : log.writes = []) : log.Carries line 0 :=
  ⟨[], h, by simp, rfl⟩

/-- Writes of one attempt. -/
theorem carries_ofWrites {k : Nat} {ws : List Bytes} (h : ws.flatten <+: line) :
    (ofWrites k ws).Carries line (if ws.flatten = line then 1 else 0) := by
  refine ⟨[⟨k, ws⟩], by simp [writes_ofWrites, Transmission.writes], ?_, ?_⟩
  · intro t ht
    obtain rfl := List.mem_singleton.1 ht
    exact h
  · by_cases hw : ws.flatten = line <;> simp [Transmission.bytes, hw]

theorem Carries.append (hn : new.Carries line n) (ho : old.Carries line m) :
    (new ++ old).Carries line (m + n) := by
  obtain ⟨ts, hw, hp, rfl⟩ := hn
  obtain ⟨us, hw', hp', rfl⟩ := ho
  refine ⟨us ++ ts, by rw [writes_append, hw, hw', List.flatMap_append], ?_, ?_⟩
  · intro t ht
    rcases List.mem_append.1 ht with ht | ht
    · exact hp' t ht
    · exact hp t ht
  · rw [List.countP_append]

/-- The record of an attempt that writes all of a line. -/
theorem carries_whole {reads opened : Record} {k : Nat} {ws : List Bytes}
    (hr : reads.writes = []) (ho : opened.writes = []) (hf : ws.flatten = line) :
    (reads ++ (ofWrites k ws ++ opened)).Carries line 1 := by
  have hw := carries_ofWrites (k := k) (List.prefix_refl ws.flatten)
  rw [if_pos rfl, hf] at hw
  exact (carries_of_writes line hr).append (hw.append (carries_of_writes line ho))

/-- **The line ends on record count the lines delivered.** -/
theorem Carries.lineEnds (h : log.Carries line n) (hl : IsLine line) : log.lineEnds = n := by
  obtain ⟨ts, hw, hp, rfl⟩ := h
  rw [Record.lineEnds, hw]
  clear hw
  induction ts with
  | nil => rfl
  | cons t ts ih =>
    have ht : (t.writes.flatMap Prod.snd).count lineEnd = if t.bytes = line then 1 else 0 := by
      have hb : t.writes.flatMap Prod.snd = t.bytes := by
        simp [Transmission.writes, Transmission.bytes, List.flatMap_map, List.flatMap_id']
      rw [hb]
      exact hl.count_lineEnd_of_start (hp t List.mem_cons_self)
    rw [List.flatMap_cons, List.flatMap_append, List.count_append, ht,
      ih fun u hu => hp u (List.mem_cons_of_mem _ hu), List.countP_cons, Nat.add_comm]
    simp

end Record

/-! ## Errors and what they say of the request -/

/-- Whether an error says that the request was not sent. -/
def ClientError.IsEarly (e : ClientError) : Prop :=
  (∃ n text, e = .noAvailableEndpoint n text) ∨ e.stage = some .request

theorem ClientError.IsLate.not_isEarly {e : ClientError} (h : e.IsLate) : ¬e.IsEarly := by
  rintro (⟨n, text, rfl⟩ | hs)
  · exact h
  · cases e with
    | io stage x | timeout stage x =>
      obtain rfl : stage = .response := h
      cases hs
    | _ => cases hs

theorem ClientError.isEarly_ofProtocol {e : ProtocolError} (h : e.IsLoss) :
    (ofProtocol .request e).IsEarly := by
  rcases h with ⟨x, rfl⟩ | ⟨limit, rfl⟩ <;> exact .inr rfl

theorem ClientError.isAmbiguous_of_isEarly {e : ClientError} (h : e.IsEarly) :
    e.isAmbiguous = false := by
  rcases h with ⟨n, text, rfl⟩ | hs
  · rfl
  · simp [isAmbiguous, hs]

theorem RetryMode.allows_of_isAmbiguous {e : ClientError} (h : e.isAmbiguous = true) :
    always.allows e = true := by
  cases e with
  | io stage x | timeout stage x => rfl
  | _ => cases h

/-- After a request was sent only one that may be sent twice is sent again. -/
theorem RetryMode.allows_late {m : RetryMode} {e : ClientError} (h : m.allows e = true)
    (hlate : e.IsLate) : m = .always ∧ e.isAmbiguous = true := by
  cases e with
  | io stage x | timeout stage x =>
    obtain rfl : stage = .response := hlate
    cases m with
    | always => exact ⟨rfl, rfl⟩
    | requestStage => cases h
  | _ => cases h

/-- Whether what fails is no connection. -/
def Stageless {α : Type} (x : Except ClientError α) : Prop := ∀ e, x = .error e → e.stage = none

namespace Stageless

variable {α β : Type}

theorem ok (a : α) : Stageless (.ok a) := fun _ he => nomatch he

theorem error {e : ClientError} (h : e.stage = none) : Stageless (.error e : Except _ α) := by
  rintro e' ⟨⟩
  exact h

theorem bind {x : Except ClientError α} {f : α → Except ClientError β} (hx : Stageless x)
    (hf : ∀ a, Stageless (f a)) : Stageless (x >>= f) := by
  cases x with
  | error e => exact error (hx e rfl)
  | ok a => exact hf a

theorem forM {check : α → Except ClientError Unit} (h : ∀ a, Stageless (check a)) (as : List α) :
    Stageless (as.forM check) := by
  induction as with
  | nil => exact ok ()
  | cons a as ih => exact (h a).bind fun _ => ih

end Stageless

namespace Profile

variable {p : Profile}

theorem stageless_checkKey (key : String) : Stageless (p.checkKey key) := by
  unfold checkKey
  split
  · exact .error rfl
  split
  · exact .error rfl
  split
  · exact .error rfl
  · exact .ok ()

theorem stageless_checkTag (tag : String) : Stageless (checkTag tag) := by
  unfold checkTag
  split
  · exact .error rfl
  · exact .ok ()

theorem stageless_checkVersion (version : String) : Stageless (checkVersion version) := by
  unfold checkVersion
  split
  · exact .error rfl
  · exact .ok ()

theorem stageless_checkSize (payload : Bytes) : Stageless (p.checkSize payload) := by
  unfold checkSize
  split
  · exact .ok ()
  simp only
  split
  · exact .error rfl
  · exact .ok ()

/-- A value that cannot be encoded is no failure of a connection. -/
theorem stageless_payloadOf (key : String) (value : Option Value) :
    Stageless (p.payloadOf key value) := by
  cases value with
  | none => exact .error rfl
  | some v =>
    have hobj : ∀ o e, p.payload.encodeObject o = .error e → ∃ x, e = .objectCodec x := by
      intro o e h
      simp only [PayloadCodec.encodeObject] at h
      split at h <;> cases h
      exact ⟨_, rfl⟩
    have hplain : ∀ e, p.payload.plain v = .error e → ∃ x, e = .objectCodec x := fun e h => by
      cases v with
      | text s =>
        simp only [PayloadCodec.plain] at h
        split at h
        · exact hobj _ e h
        · cases h
      | object o => exact hobj o e h
      | bytes b => cases h
    simp only [payloadOf, PayloadCodec.encode, PayloadCodec.encodeWith]
    cases hb : p.payload.plain v with
    | error e =>
      obtain ⟨x, rfl⟩ := hplain e hb
      exact .error rfl
    | ok b =>
      simp only
      cases p.payload.strategy.select key b.length with
      | none => exact .ok b
      | some id =>
        simp only
        cases p.payload.compressors.compress id b with
        | error e => exact .error rfl
        | ok framed => exact .ok framed

theorem stageless_write (op : Opcode) (key : String) (value : Option Value)
    (version : Option String) (options : StoreOptions) :
    Stageless (p.write op key value version options) :=
  (stageless_checkKey key).bind fun _ => (Stageless.forM stageless_checkTag _).bind fun _ =>
    (stageless_payloadOf key value).bind fun payload => (stageless_checkSize payload).bind fun _ =>
      .ok _

end Profile

/-- A request that cannot be written is no failure of a connection. -/
theorem Operation.stageless_request {α : Type} (op : Operation α) (p : Profile) :
    Stageless (op.request p) := by
  cases op with
  | init | version => exact .ok _
  | set | add => exact Profile.stageless_write _ _ _ _ _
  | setVersioned =>
    exact (Profile.stageless_checkVersion _).bind fun _ => Profile.stageless_write _ _ _ _ _
  | get | remove | getVersioned => exact (Profile.stageless_checkKey _).bind fun _ => .ok _
  | getMulti => exact (Stageless.forM Profile.stageless_checkKey _).bind fun _ => .ok _
  | getTagKeys | getPairsByTag => exact (Profile.stageless_checkTag _).bind fun _ => .ok _

namespace Exchange

variable {ω α : Type} {net : Network ω} {x : Exchange α} {p : Pool (Recorded ω)}
  {y : Except ClientError α × Pool (Recorded ω)}

/-- Whether `n` is the number of deliveries that the outcome of an attempt tells of. -/
def Tells (y : Except ClientError α) (n : Nat) : Prop :=
  (∃ e, y = .error e ∧ e.IsEarly) ∧ n = 0 ∨ (∀ e, y = .error e → e.IsLate) ∧ n = 1

theorem Attempted.carries (h : Attempted x p y) :
    ∃ new n, y.2.net.log = new ++ p.net.log ∧ new.Carries x.request.line n ∧ Tells y.1 n := by
  -- taking the connection writes nothing
  have taken : ∀ {c p₁}, Pool.Taken p (.ok c, p₁) →
      ∃ opened : Record, p₁.net.log = opened ++ p.net.log ∧ opened.writes = [] := by
    intro c p₁ ht
    cases ht with
    | kept _ _ hl _ => exact ⟨[], hl, rfl⟩
    | opened _ hl _ => exact ⟨[_], hl, rfl⟩
  cases h with
  | unreachable _ hl =>
    exact ⟨[], 0, hl, Record.carries_of_writes _ rfl, .inl ⟨⟨_, rfl, .inl ⟨_, _, rfl⟩⟩, rfl⟩⟩
  | @unsent c p₁ p' ws e ht _ hl hp hne hloss =>
    obtain ⟨opened, ho, hw⟩ := taken ht
    refine ⟨.ofWrites c.link ws ++ opened, 0, by rw [hl, ho, List.append_assoc], ?_,
      .inl ⟨⟨_, rfl, ClientError.isEarly_ofProtocol hloss⟩, rfl⟩⟩
    have h := (Record.carries_ofWrites (k := c.link) hp).append
      (Record.carries_of_writes x.request.line hw)
    rwa [if_neg hne] at h
  | @undecoded c p₁ p' ws reads e ht _ hl hf _ hn hlate =>
    obtain ⟨opened, ho, hw⟩ := taken ht
    refine ⟨reads ++ (.ofWrites c.link ws ++ opened), 1,
      by rw [hl, ho, List.append_assoc, List.append_assoc], Record.carries_whole hn hw hf,
      .inr ⟨?_, rfl⟩⟩
    rintro e' ⟨⟩
    exact hlate
  | @decoded c c' p₁ p' ws reads a used l ht _ hl hf _ hn =>
    obtain ⟨opened, ho, hw⟩ := taken ht
    refine ⟨reads ++ (.ofWrites c.link ws ++ opened), 1,
      by rw [hl, ho, List.append_assoc, List.append_assoc], Record.carries_whole hn hw hf,
      .inr ⟨?_, rfl⟩⟩
    rintro e' ⟨⟩

/-- Whether the first attempt of an exchange sends the request and gets no reply. -/
def losesReply (net : Network ω) (x : Exchange α) (p : Pool ω) : Bool :=
  match (x.attempt net p).1 with
  | .error e => e.isAmbiguous
  | .ok _ => false

theorem losesReply_eq_true {net : Network ω} {x : Exchange α} {p : Pool ω} :
    x.losesReply net p = true ↔ ∃ e, (x.attempt net p).1 = .error e ∧ e.isAmbiguous = true := by
  rw [losesReply]
  cases (x.attempt net p).1 with
  | error e => simp
  | ok a => simp

/-- An exchange delivers its line as often as its outcome tells of, and once more if it is repeated
after a reply was lost. -/
theorem carries_run_add (net : Network ω) (x : Exchange α)
    (h : ∀ {σ : Type} (src : Source σ) r, Replying.FollowsAt src (x.reply src) (x.reply .ended) r)
    (p : Pool (Recorded ω)) :
    ∃ new n, (x.run net.recorded p).2.net.log = new ++ p.net.log ∧
      new.Carries x.request.line
        ((if x.mode = .always ∧ x.losesReply net.recorded p then 1 else 0) + n) ∧
      Tells (x.run net.recorded p).1 n := by
  obtain ⟨new, n, hl, hc, ht⟩ := (x.attempted net h p).carries
  rcases x.run_cases net.recorded p with ⟨hr, hno⟩ | ⟨e, he, ha, hr⟩
  · have hkept : ¬(x.mode = .always ∧ x.losesReply net.recorded p) := by
      rintro ⟨hm, hlost⟩
      obtain ⟨e, he, hamb⟩ := losesReply_eq_true.1 hlost
      have hallow := hno e he
      rw [hm, RetryMode.allows_of_isAmbiguous hamb] at hallow
      cases hallow
    rw [hr, if_neg hkept]
    exact ⟨new, n, hl, by rwa [Nat.zero_add], ht⟩
  · obtain ⟨new', n', hl', hc', ht'⟩ :=
      (x.attempted net h (x.attempt net.recorded p).2).carries
    have hn : n = if x.mode = .always ∧ x.losesReply net.recorded p then 1 else 0 := by
      rcases ht with ⟨⟨e', he', hearly⟩, rfl⟩ | ⟨hlate, rfl⟩
      · refine (if_neg fun ⟨_, hlost⟩ => ?_).symm
        obtain ⟨e'', he'', hamb⟩ := losesReply_eq_true.1 hlost
        obtain rfl : e' = e'' := Except.error.inj (he'.symm.trans he'')
        rw [ClientError.isAmbiguous_of_isEarly hearly] at hamb
        cases hamb
      · obtain ⟨hm, hamb⟩ := RetryMode.allows_late ha (hlate e he)
        exact (if_pos ⟨hm, losesReply_eq_true.2 ⟨e, he, hamb⟩⟩).symm
    rw [hr, ← hn]
    exact ⟨new' ++ new, n', by rw [hl', hl, List.append_assoc], hc'.append hc, ht'⟩

/-- An exchange delivers its line twice at most, and one that must not be repeated as often as its
outcome tells of. -/
theorem carries_run (net : Network ω) (x : Exchange α)
    (h : ∀ {σ : Type} (src : Source σ) r, Replying.FollowsAt src (x.reply src) (x.reply .ended) r)
    (p : Pool (Recorded ω)) :
    ∃ new n, (x.run net.recorded p).2.net.log = new ++ p.net.log ∧
      new.Carries x.request.line n ∧ n ≤ 2 ∧
      (x.mode = .requestStage → Tells (x.run net.recorded p).1 n) := by
  obtain ⟨new, n, hl, hc, ht⟩ := x.carries_run_add net h p
  refine ⟨new, _, hl, hc, ?_, fun hm => ?_⟩
  · rcases ht with ⟨-, rfl⟩ | ⟨-, rfl⟩ <;> split <;> decide
  · rw [if_neg fun ⟨hm', _⟩ => (by cases hm.symm.trans hm'), Nat.zero_add]
    exact ht

/-- An exchange that must not be repeated after its request was sent fails as it lost the reply. -/
theorem isAmbiguous_of_losesReply {net : Network ω} {x : Exchange α} {p : Pool ω}
    (hm : x.mode = .requestStage) (hlost : x.losesReply net p = true) :
    ∃ e, (x.run net p).1 = .error e ∧ e.isAmbiguous = true := by
  obtain ⟨e, he, hamb⟩ := losesReply_eq_true.1 hlost
  rcases x.run_cases net p with ⟨hr, -⟩ | ⟨e', he', ha, -⟩
  · exact ⟨e, by rw [hr, he], hamb⟩
  · obtain rfl : e = e' := Except.error.inj (he.symm.trans he')
    have hstage : e.stage = some .response := by simpa [ClientError.isAmbiguous] using hamb
    simp [RetryMode.allows, RetryMode.permits, hm, hstage] at ha

end Exchange

/-- **An operation delivers its request at most twice, and one that must not be repeated at most
once.** Every copy is the same, and whether the one copy went out can be told from the outcome. -/
theorem Operation.delivered {ω α : Type} (net : Network ω) (op : Operation α)
    (c : Client (Recorded ω)) :
    ∃ new : Record, (op.run net.recorded c).2.pool.net.log = new ++ c.pool.net.log ∧
      (∀ e, op.request c.profile = .error e → new = []) ∧
      (∀ r, op.request c.profile = .ok r → IsLine r.line ∧ new.Carries r.line new.lineEnds) ∧
      new.lineEnds ≤ 2 ∧
      (op.isConditional = true → new.lineEnds ≤ 1 ∧
        (∀ e, (op.run net.recorded c).1 = .error e →
          (∃ detail, e = .invalidArgument detail) ∨ e.IsEarly → new.lineEnds = 0) ∧
        (∀ e, (op.run net.recorded c).1 = .error e → e.stage = some .response →
          new.lineEnds = 1) ∧
        ∀ a, (op.run net.recorded c).1 = .ok a → new.lineEnds = 1) := by
  have hran := op.ran net.recorded c
  generalize op.run net.recorded c = y at hran ⊢
  cases hran with
  | @void a hv =>
    refine ⟨[], rfl, fun _ _ => rfl, fun r hr => ⟨op.isLine_line hr, ?_⟩, Nat.zero_le 2,
      fun hc => ?_⟩
    · exact Record.carries_of_writes _ rfl
    · cases op <;> cases hc <;> cases hv
  | @unwritten e he =>
    refine ⟨[], rfl, fun _ _ => rfl, fun r hr => (by cases he.symm.trans hr), Nat.zero_le 2,
      fun _ => ⟨Nat.zero_le 1, fun _ _ _ => rfl, ?_, fun a ha => (by cases ha)⟩⟩
    rintro e' ⟨⟩ hs
    rw [op.stageless_request c.profile e he] at hs
    cases hs
  | @exchanged r y pool profile hv hr hx =>
    obtain ⟨new, n, hl, hc, hn, ht⟩ := Exchange.carries_run net (op.exchange c.profile r)
      (fun src => op.followsAt_reply c.profile src) c.pool
    rw [hx] at hl ht
    have hline := Operation.isLine_line hr
    obtain rfl := hc.lineEnds hline
    refine ⟨new, hl, fun e he => (by cases hr.symm.trans he), fun r' hr' => ?_, hn, fun hcond => ?_⟩
    · rw [hr] at hr'
      cases hr'
      exact ⟨hline, hc⟩
    · have hmode : (op.exchange c.profile r).mode = .requestStage := by
        simp [Operation.exchange, Operation.mode, hcond]
      have hy : y.bind op.conclude = y := by
        cases y with
        | error e => rfl
        | ok a => exact Operation.conclude_of_isConditional hcond a
      simp only [hy]
      rcases ht hmode with ⟨⟨e, rfl, he⟩, h0⟩ | ⟨hlate, h1⟩
      · refine ⟨by omega, fun _ _ _ => h0, fun e' he' hs => ?_, fun a ha => (by cases ha)⟩
        cases he'
        rcases he with ⟨k, text, rfl⟩ | hs'
        · cases hs
        · rw [hs'] at hs
          cases hs
      · refine ⟨by omega, fun e he h => ?_, fun _ _ _ => h1, fun _ _ => h1⟩
        rcases h with ⟨detail, rfl⟩ | h
        · exact (hlate _ he).elim
        · exact absurd h (hlate e he).not_isEarly

end TagStore
