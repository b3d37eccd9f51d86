import TagStore.Proofs.Client.Decoding
import TagStore.Proofs.Client.PoolRecord
import TagStore.Client.Exchange

/-!
# Attempts

All that one attempt of an exchange can come to (`Exchange.attempted`): no endpoint is reached; the
line of the request is not written to its end; it is, and no reply is decoded; or a reply is. Each
case tells what the attempt leaves on record and in the pool. An exchange is one attempt, or two of
which the first allows the second (`Exchange.run_cases`).
-/

namespace TagStore

variable {ω α : Type} {net : Network ω}

namespace Pool

/-- What receiving a reply leaves on record, and what it decodes. -/
theorem receive_recorded (net : Network ω) (c : Connection) (p : Pool (Recorded ω))
    {reply : {σ : Type} → Source σ → Replying σ α}
    (h : ∀ {σ : Type} (src : Source σ) r, Replying.FollowsAt src (reply src) (reply .ended) r) :
    (p.receive net.recorded c fun src r => reply src r).2.1.link = c.link ∧
    (p.receive net.recorded c fun src r => reply src r).2.2.idle = p.idle ∧
    (∀ e, (p.receive net.recorded c fun src r => reply src r).1 = .error e → e.IsLate) ∧
    ∃ reads : Record,
      (p.receive net.recorded c fun src r => reply src r).2.2.net.log = reads ++ p.net.log ∧
      reads.Within c.link ∧ reads.writes = [] ∧
      ∀ a, (p.receive net.recorded c fun src r => reply src r).1 = .ok a → ∃ used l,
        c.buffer.unread ++ reads.received c.link =
          used ++ (p.receive net.recorded c fun src r => reply src r).2.1.buffer.unread ∧
        ∀ more, reply .ended (.holding (used ++ more) true) = (.ok a, .holding more l) := by
  obtain ⟨-, ⟨got, hb⟩, hd, hl⟩ := h
    ((net.recorded.source c.link p.settings.readTimeout).watched (p.peer c))
    (.start ⟨p.net, p.seen⟩ c.buffer)
  refine ⟨rfl, rfl, hl, ?_⟩
  rcases ha : (reply ((net.recorded.source c.link p.settings.readTimeout).watched (p.peer c))
    (.start ⟨p.net, p.seen⟩ c.buffer)).1 with e | a
  · obtain ⟨reads, hlog, hw, hn, -⟩ := Network.log_brings hb
    exact ⟨reads, hlog, hw, hn, fun a h => (by cases ha.symm.trans h)⟩
  · obtain ⟨got, used, hb, hu, hm⟩ := hd a ha
    obtain ⟨reads, hlog, hw, hn, hr⟩ := Network.log_brings hb
    refine ⟨reads, hlog, hw, hn, ?_⟩
    intro b h
    obtain rfl : a = b := Except.ok.inj (ha.symm.trans h)
    exact ⟨used, _, hr ▸ hu, hm⟩

end Pool

namespace Exchange

variable {x : Exchange α}

/-- What an attempt comes to. -/
inductive Attempted (x : Exchange α) (p : Pool (Recorded ω)) :
    Except ClientError α × Pool (Recorded ω) → Prop
  /-- No endpoint is reached. -/
  | unreachable {n : Nat} {text : String} {p' : Pool (Recorded ω)} :
    p'.idle = p.idle.tail → p'.net.log = p.net.log →
    Attempted x p (.error (.noAvailableEndpoint n text), p')
  /-- The line is not written to its end. -/
  | unsent {c : Connection} {p₁ p' : Pool (Recorded ω)} {ws : List Bytes} {e : ProtocolError} :
    Pool.Taken p (.ok c, p₁) → p'.idle = p₁.idle →
    p'.net.log = .ofWrites c.link ws ++ p₁.net.log →
    ws.flatten <+: x.request.line → ws.flatten ≠ x.request.line → e.IsLoss →
    Attempted x p (.error (.ofProtocol .request e), p')
  /-- The line is written, and no reply is decoded. -/
  | undecoded {c : Connection} {p₁ p' : Pool (Recorded ω)} {ws : List Bytes} {reads : Record}
    {e : ClientError} :
    Pool.Taken p (.ok c, p₁) → p'.idle = p₁.idle →
    p'.net.log = reads ++ (.ofWrites c.link ws ++ p₁.net.log) →
    ws.flatten = x.request.line → reads.Within c.link → reads.writes = [] → e.IsLate →
    Attempted x p (.error e, p')
  /-- The line is written, and a reply is decoded, of which `used` is taken. -/
  | decoded {c c' : Connection} {p₁ p' : Pool (Recorded ω)} {ws : List Bytes} {reads : Record}
    {a : α} {used : Bytes} {l : Bool} :
    Pool.Taken p (.ok c, p₁) →
    p'.idle = p₁.idle ∨ p'.idle = p₁.idle ++ [c'] ∧ c'.buffer.unread = [] →
    p'.net.log = reads ++ (.ofWrites c.link ws ++ p₁.net.log) →
    ws.flatten = x.request.line → reads.Within c.link → reads.writes = [] → c'.link = c.link →
    c.buffer.unread ++ reads.received c.link = used ++ c'.buffer.unread →
    (∀ more, x.reply .ended (.holding (used ++ more) true) = (.ok a, .holding more l)) →
    Attempted x p (.ok a, p')

/-- **Every attempt comes to one of four ends.** -/
theorem attempted (net : Network ω) (x : Exchange α)
    (h : ∀ {σ : Type} (src : Source σ) r, Replying.FollowsAt src (x.reply src) (x.reply .ended) r)
    (p : Pool (Recorded ω)) : Attempted x p (x.attempt net.recorded p) := by
  have ht := Pool.taken_acquire net p
  rw [attempt]
  rcases hq : p.acquire net.recorded with ⟨e | c, p₁⟩ <;> rw [hq] at ht
  · cases ht with
    | unreachable hi hl => exact .unreachable hi hl
  · simp only [onConnection]
    obtain ⟨hi, ws, hl, hs⟩ := Pool.send_recorded net c x.request p₁
    rcases hy : p₁.send net.recorded c x.request with ⟨e | ⟨⟨⟩⟩, p₂⟩ <;> rw [hy] at hi hl hs
    · obtain ⟨hs, -⟩ | ⟨⟨e', he, hloss⟩, hp, hne⟩ := hs
      · cases hs
      · cases he
        exact .unsent ht hi hl hp hne hloss
    · obtain ⟨-, hf⟩ | ⟨⟨e', he, -⟩, -⟩ := hs
      · simp only
        obtain ⟨hk, hi', hlate, reads, hl', hw, hn, hd⟩ :=
          Pool.receive_recorded net c p₂ h
        rcases hz : p₂.receive net.recorded c fun src r => x.reply src r with ⟨e | a, c', p₃⟩ <;>
          rw [hz] at hk hi' hlate hl' hd
        · exact .undecoded ht (hi'.trans hi) (hl ▸ hl') hf hw hn (hlate e rfl)
        · obtain ⟨used, l, hu, hm⟩ := hd a rfl
          refine .decoded ht ?_ (by rw [Pool.log_recycle]; exact hl ▸ hl') hf hw hn hk hu
            hm
          have hi : p₃.idle = p₁.idle := hi'.trans hi
          rw [← hi]
          exact Pool.idle_recycle net.recorded c' p₃
      · cases he

/-- An attempt only adds to the record. -/
theorem Attempted.suffix {p : Pool (Recorded ω)} {y : Except ClientError α × Pool (Recorded ω)}
    (h : Attempted x p y) : p.net.log <:+ y.2.net.log := by
  have taken : ∀ {c p₁}, Pool.Taken p (.ok c, p₁) → p.net.log <:+ p₁.net.log := by
    intro c p₁ ht
    cases ht with
    | kept _ _ hl _ => exact hl ▸ List.suffix_refl _
    | opened _ hl _ => exact hl ▸ List.suffix_cons _ _
  cases h with
  | unreachable _ hl => exact hl ▸ List.suffix_refl _
  | unsent ht _ hl => exact (taken ht).trans (hl ▸ List.suffix_append _ _)
  | undecoded ht _ hl | decoded ht _ hl =>
    rw [← List.append_assoc] at hl
    exact (taken ht).trans (hl ▸ List.suffix_append _ _)

/-- An exchange is one attempt, or two of which the first allows the second. -/
theorem run_cases (net : Network ω) (x : Exchange α) (p : Pool ω) :
    (x.run net p = x.attempt net p ∧
        ∀ e, (x.attempt net p).1 = .error e → x.mode.allows e = false) ∨
      ∃ e, (x.attempt net p).1 = .error e ∧ x.mode.allows e = true ∧
        x.run net p = x.attempt net (x.attempt net p).2 := by
  rw [run, RetryMode.retryOnce]
  rcases hx : x.attempt net p with ⟨e | a, p'⟩
  · by_cases ha : x.mode.allows e
    · exact .inr ⟨e, rfl, ha, if_pos ha⟩
    · refine .inl ⟨if_neg ha, ?_⟩
      rintro e' ⟨⟩
      exact Bool.eq_false_iff.2 ha
  · exact .inl ⟨rfl, fun e he => by cases he⟩

end Exchange

end TagStore
