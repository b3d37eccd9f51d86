import TagStore.Proofs.Client.Delivery
import TagStore.Proofs.Client.Failover

/-!
# What an unflagged error says of a write

An error is flagged as ambiguous if the connection failed while the reply was read. The flag looks
at one error only, and an operation that is repeated ends with the error of its second attempt. So a
write that fails without the flag, and not by the word of the server, may have been delivered in two
ways: by the first of two attempts, whose reply was lost, and by the last attempt, if its reply made
no sense. There is no other (`Operation.deliveries_of_unflagged`), and both come about
(`Operation.unflagged_after_delivery`).
-/

namespace TagStore

open Wire

namespace ClientError

/-- Whether an error is the server's own refusal. -/
def IsRefusal (e : ClientError) : Prop := e.kind = .operation ∨ e.kind = .versionConflict

instance (e : ClientError) : Decidable e.IsRefusal :=
  inferInstanceAs (Decidable (e.kind = .operation ∨ e.kind = .versionConflict))

/-- An error after the request was sent that is neither flagged nor a refusal is one of the reply. -/
theorem IsLate.kind_eq_protocol {e : ClientError} (h : e.IsLate) (href : ¬e.IsRefusal)
    (hamb : e.isAmbiguous = false) : e.kind = .protocol := by
  cases e with
  | io stage x | timeout stage x =>
    obtain rfl : stage = .response := h
    cases hamb
  | protocol x => rfl
  | operation kind text => exact absurd (.inl rfl) href
  | versionConflict text => exact absurd (.inr rfl) href
  | _ => exact h.elim

theorem IsEarly.kind_ne_protocol {e : ClientError} (h : e.IsEarly) : e.kind ≠ .protocol := by
  rcases h with ⟨n, text, rfl⟩ | hs
  · nofun
  · cases e with
    | io stage x | timeout stage x => nofun
    | _ => cases hs

end ClientError

namespace Operation

variable {ω α : Type}

/-- Whether an operation changes what the server holds. -/
def isWrite : Operation α → Bool
  | set .. | add .. | setVersioned .. | remove .. => true
  | _ => false

theorem conclude_of_isWrite {op : Operation α} (h : op.isWrite = true) (a : α) :
    op.conclude a = .ok a := by
  cases op with
  | version => cases h
  | _ => rfl

theorem isVoid_of_isWrite {op : Operation α} (h : op.isWrite = true) : op.isVoid = false := by
  cases op with
  | getMulti => cases h
  | _ => rfl

/-- **How often a write was delivered that fails without a flag.** Its last attempt delivered it
just if the reply made no sense, and there was another before that delivered it just if the reply
was lost. A write that must not be repeated has no such other. -/
theorem deliveries_of_unflagged (net : Network ω) (op : Operation α) (c : Client (Recorded ω))
    (hop : op.isWrite = true) {e : ClientError} (he : (op.run net.recorded c).1 = .error e)
    (href : ¬e.IsRefusal) (hamb : e.isAmbiguous = false) :
    ∃ new : Record, (op.run net.recorded c).2.pool.net.log = new ++ c.pool.net.log ∧
      (∀ d, op.request c.profile = .error d → new = []) ∧
      ∀ r, op.request c.profile = .ok r → IsLine r.line ∧ new.Carries r.line new.lineEnds ∧
        new.lineEnds =
          (if (op.exchange c.profile r).losesReply net.recorded c.pool then 1 else 0) +
            (if e.kind = .protocol then 1 else 0) ∧
        (op.isConditional = true →
          (op.exchange c.profile r).losesReply net.recorded c.pool = false) := by
  have hran := op.ran net.recorded c
  generalize op.run net.recorded c = y at he hran ⊢
  cases hran with
  | void hv => cases (isVoid_of_isWrite hop).symm.trans hv
  | unwritten hd => exact ⟨[], rfl, fun _ _ => rfl, fun r hr => by cases hd.symm.trans hr⟩
  | @exchanged r y pool profile hv hr hx =>
    have hy : y = .error e := by
      cases y with
      | error e' => exact he
      | ok a => cases (conclude_of_isWrite hop a).symm.trans he
    subst hy
    obtain ⟨new, n, hl, hc, ht⟩ := Exchange.carries_run_add net (op.exchange c.profile r)
      (fun src => op.followsAt_reply c.profile src) c.pool
    -- one that must not be repeated fails with the flag if it loses the reply
    have honce (hcond : op.isConditional = true) :
        (op.exchange c.profile r).losesReply net.recorded c.pool = false := by
      have hmode : (op.exchange c.profile r).mode = .requestStage := if_pos hcond
      apply Bool.eq_false_iff.2
      intro hlost
      obtain ⟨e', he', hamb'⟩ := Exchange.isAmbiguous_of_losesReply hmode hlost
      rw [hx] at he'
      cases he'
      cases hamb.symm.trans hamb'
    have hfirst : ((op.exchange c.profile r).mode = .always ∧
        (op.exchange c.profile r).losesReply net.recorded c.pool = true) ↔
          (op.exchange c.profile r).losesReply net.recorded c.pool = true := by
      refine ⟨And.right, fun hlost => ⟨if_neg fun hcond => ?_, hlost⟩⟩
      cases (honce hcond).symm.trans hlost
    rw [hx] at hl ht
    have hline := isLine_line hr
    have hcount := hc.lineEnds hline
    refine ⟨new, hl, fun d hd => (by cases hr.symm.trans hd), fun r' hr' => ?_⟩
    obtain rfl := Except.ok.inj (hr.symm.trans hr')
    refine ⟨hline, hcount ▸ hc, ?_, honce⟩
    have hlast : n = if e.kind = .protocol then 1 else 0 := by
      rcases ht with ⟨⟨e', he', hearly⟩, rfl⟩ | ⟨hlate, rfl⟩
      · cases he'
        rw [if_neg hearly.kind_ne_protocol]
      · rw [if_pos ((hlate e rfl).kind_eq_protocol href hamb)]
    rw [hcount, hlast]
    simp only [hfirst]

end Operation

/-! ## Both ways come about -/

/-- A network that has one reply for each connection, and refuses to connect after the last. The
state is the replies to come and what is still to be read. -/
def Network.scripted : Network (List Bytes × Bytes) where
  now _ := 0
  wait _ s := s
  dial _ s :=
    match s.1 with
    | [] => (.failed ⟨.connectionRefused, "refused"⟩, s)
    | reply :: replies => (.connected replies.length, (replies, reply))
  reach _ _ := .accepts
  write _ b s := (.accepted b.length, s)
  read _ n s := (.bytes (s.2.take n), (s.1, s.2.drop n))
  peek _ _ := .quiet
  close _ s := s
  budget _ s := s.2.length
  read_budget _ n s := by simp
  bytes_budget _ n s b h := by
    cases h
    rw [Nat.add_comm, ← List.length_append, List.take_append_drop]
  wait_budget _ _ _ := Nat.le_refl _

/-- A client of three endpoints, none of which it was in contact with. -/
def Client.scripted (replies : List Bytes) : Client (Recorded (List Bytes × Bytes)) where
  profile := ⟨.base64, .standard, none⟩
  pool := .empty {} false .untried ⟨(replies, []), []⟩

namespace Operation

/-- A write. -/
def store : Operation Unit := .set "a" (some (.text "b")) {}

/-- A reply to another operation. -/
def strayReply : Bytes := Bytes.ofString "2,true,\n"

/-- Where the reply to the first attempt is lost and that to the second makes no sense, a write that
fails without the flag was delivered twice. -/
theorem deliveries_of_unflagged_twice :
    ∃ new : Record,
      (store.run Network.scripted.recorded (.scripted [[], strayReply])).2.pool.net.log =
        new ++ [] ∧ new.lineEnds = 2 := by
  obtain ⟨new, hl, -, h⟩ := deliveries_of_unflagged Network.scripted store
    (.scripted [[], strayReply]) rfl (e := .protocol (.unexpectedOpcode 1 2)) (by decide +kernel)
    (by decide) rfl
  have hr : store.request (Client.scripted [[], strayReply]).profile =
      .ok ⟨.set, [.text (some "a") .base64, .list [] .base64, .number 0, .blob [98], .number 0,
        .empty]⟩ := by rfl
  obtain ⟨-, -, hn, -⟩ := h _ hr
  exact ⟨new, hl, hn.trans (by decide +kernel)⟩

/-- **A write that fails without the flag, and not by the word of the server, may have been
delivered.** The reply made no sense, or it was lost and no connection is made again. -/
theorem unflagged_after_delivery :
    (∃ e, (store.run Network.scripted.recorded (.scripted [strayReply])).1 = .error e ∧
      ¬e.IsRefusal ∧ e.isAmbiguous = false ∧
      (store.run Network.scripted.recorded (.scripted [strayReply])).2.pool.net.log.lineEnds =
        1) ∧
    ∃ e, (store.run Network.scripted.recorded (.scripted [[]])).1 = .error e ∧
      ¬e.IsRefusal ∧ e.isAmbiguous = false ∧
      (store.run Network.scripted.recorded (.scripted [[]])).2.pool.net.log.lineEnds = 1 := by
  constructor
  · exact ⟨.protocol (.unexpectedOpcode 1 2), by decide +kernel, by decide, rfl, by decide +kernel⟩
  · exact ⟨.noAvailableEndpoint 3 "a:1: refused", by decide +kernel, by decide, rfl,
      by decide +kernel⟩

end Operation

end TagStore
