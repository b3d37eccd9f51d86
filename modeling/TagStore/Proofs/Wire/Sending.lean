import Mathlib.Algebra.GroupWithZero.Nat
import TagStore.Wire.Request

/-!
# Sending a line

A writer answers each write as its script says: it takes some of the bytes offered, or none, or it
fails, or stays silent. Bytes are offered until all are taken or the writer refuses to take more
(`Request.Offered`); what it has taken by then is a first part of them, each byte once. A request
is sent if its line is taken and flushed, and only then is it put on record
(`Request.sendWatched_script`).
-/

namespace TagStore

namespace Acceptance

/-- How many bytes a writer takes at most. -/
def room : Acceptance → Nat
  | upTo n => n
  | failure _ | silence => 0

/-- The error of a writer that refuses to take more. -/
def refusal? (limit : Option Duration) : Acceptance → Option ProtocolError
  | upTo 0 => some (.io ⟨.writeZero, "write zero"⟩)
  | upTo (_ + 1) => none
  | failure e => some (.io e)
  | silence => some (.ofSilence limit)

end Acceptance

/-- The result of a request whose line has been taken. -/
def Flushed.result (limit : Option Duration) : Flushed → Except ProtocolError Unit
  | done => .ok ()
  | failed e => .error (.io e)
  | nothing => .error (.ofSilence limit)

namespace Request

open Acceptance

variable {limit : Option Duration} {b : Bytes} {s : Script}
  {out : Except ProtocolError Unit × Script}

/-- What offering bytes to a writer comes to. -/
inductive Offered (limit : Option Duration) (b : Bytes) (s : Script) :
    Except ProtocolError Unit × Script → Prop
  /-- The writer has taken all of them. -/
  | all (used rest : List Acceptance) (hsteps : s.steps = used ++ rest)
      (hused : ∀ a ∈ used, a.refusal? limit = none) :
    Offered limit b s (.ok (), { s with steps := rest, taken := b.reverse ++ s.taken })
  /-- The writer has taken the first of them, as many as it said, and refuses to take more. -/
  | refused (used : List Acceptance) (a : Acceptance) (rest : List Acceptance) {e : ProtocolError}
      (hsteps : s.steps = used ++ a :: rest) (hused : ∀ a ∈ used, a.refusal? limit = none)
      (ha : a.refusal? limit = some e) (hleft : (used.map room).sum < b.length) :
    Offered limit b s (.error e,
      { s with steps := rest, taken := (b.take (used.map room).sum).reverse ++ s.taken })

/-- A write that is not refused leaves the rest of the bytes to be offered. -/
theorem Offered.prepend {n : Nat} {r : List Acceptance} (hsteps : s.steps = .upTo (n + 1) :: r)
    (h : Offered limit (b.drop (n + 1))
      { s with steps := r, taken := (b.take (n + 1)).reverse ++ s.taken } out) :
    Offered limit b s out := by
  have hcons : ∀ {used : List Acceptance}, (∀ a ∈ used, a.refusal? limit = none) →
      ∀ a ∈ .upTo (n + 1) :: used, a.refusal? limit = none :=
    fun hnone => List.forall_mem_cons.2 ⟨rfl, hnone⟩
  cases h with
  | all used rest hr hnone =>
    dsimp only
    rw [← List.append_assoc, ← List.reverse_append, List.take_append_drop]
    exact .all (.upTo (n + 1) :: used) rest (hsteps.trans (congrArg (_ :: ·) hr)) (hcons hnone)
  | refused used a rest hr hnone ha hleft =>
    have hsum : ((Acceptance.upTo (n + 1) :: used).map room).sum =
        n + 1 + (used.map room).sum := by
      rw [List.map_cons, List.sum_cons, room]
    rw [List.length_drop] at hleft
    dsimp only
    rw [← List.append_assoc, ← List.reverse_append, ← List.take_add, ← hsum]
    exact .refused (.upTo (n + 1) :: used) a rest (hsteps.trans (congrArg (_ :: ·) hr))
      (hcons hnone) ha (by omega)

theorem drop_length_take (b : Bytes) (n : Nat) : b.drop (b.take n).length = b.drop n := by
  rw [List.length_take]
  obtain h | h := Nat.le_total n b.length
  · rw [Nat.min_eq_left h]
  · rw [Nat.min_eq_right h, List.drop_length, List.drop_of_length_le h]

/-- **Bytes are offered until all are taken or the writer refuses.** The induction is on the script:
each write takes one step of it, and after its end everything is taken at once. -/
theorem offered_writeAll (limit : Option Duration) (b : Bytes) (s : Script) :
    Offered limit b s (writeAll Script.sink limit b s) := by
  obtain ⟨steps, flush, taken, flushed⟩ := s
  induction steps generalizing b taken with
  | nil =>
    cases b with
    | nil =>
      rw [writeAll]
      exact .all [] [] rfl (List.forall_mem_nil _)
    | cons x xs =>
      rw [writeAll]
      simp only [Script.sink, Script.take, List.length_cons, List.drop_length]
      rw [writeAll]
      exact .all [] [] rfl (List.forall_mem_nil _)
  | cons a r ih =>
    cases b with
    | nil =>
      rw [writeAll]
      exact .all [] (a :: r) rfl (List.forall_mem_nil _)
    | cons x xs =>
      rw [writeAll]
      cases a with
      | upTo n =>
        cases n with
        | zero => exact .refused [] (.upTo 0) r rfl (List.forall_mem_nil _) rfl (by simp)
        | succ n =>
          refine .prepend rfl ?_
          simp only [Script.sink, Script.take, List.take_succ_cons, List.length_cons,
            List.drop_succ_cons]
          rw [drop_length_take]
          exact ih _ _
      | failure e => exact .refused [] (.failure e) r rfl (List.forall_mem_nil _) rfl (by simp)
      | silence => exact .refused [] .silence r rfl (List.forall_mem_nil _) rfl (by simp)

theorem line_ne_nil (q : Request) : q.line ≠ [] := by simp [line]

/-- A writer that has taken the line of a request flushes it. -/
theorem send_of_taken {q : Request} {s' : Script}
    (h : writeAll Script.sink limit q.line s = (.ok (), s')) :
    q.send Script.sink limit s =
      (s'.flush.result limit, { s' with flushed := s'.flush = .done }) := by
  rw [send, h]
  simp only [Script.sink]
  cases s'.flush <;> rfl

theorem send_of_refused {q : Request} {s' : Script} {e : ProtocolError}
    (h : writeAll Script.sink limit q.line s = (.error e, s')) :
    q.send Script.sink limit s = (.error e, s') := by
  rw [send, h]

/-- A request that is sent is put on record, in one piece, and no other is. -/
theorem sendWatched_eq {σ : Type} (q : Request) (sink : Sink σ) (limit : Option Duration)
    (peer : String) (w : Watched σ) :
    q.sendWatched sink limit (some peer) w =
      ((q.send sink limit w.state).1,
        ⟨(q.send sink limit w.state).2,
          match (q.send sink limit w.state).1 with
          | .ok () => ⟨.outbound, peer, q.line⟩ :: w.seen
          | .error _ => w.seen⟩) := by
  rw [sendWatched]
  obtain ⟨x, xs, hline⟩ := List.exists_cons_of_ne_nil q.line_ne_nil
  rcases q.send sink limit w.state with ⟨e | ⟨⟨⟩⟩, s⟩
  · rfl
  · rw [hline]
    rfl

/-- **A request is sent once, and told truly.** Whatever the writer answers, what it has taken is a
first part of the line. The request is sent exactly if that is all of it and the writer has flushed
it; then the line is on record, once and in one piece, and otherwise nothing is. If the line is
taken, the flush decides; if not, the writer has refused to take more than it had said, by taking
nothing, by a failure or by silence, and that is the error. -/
theorem sendWatched_script (q : Request) (steps : List Acceptance) (flush : Flushed)
    (limit : Option Duration) (peer : String) (seen : List Traffic) :
    let out := q.sendWatched Script.sink limit (some peer) ⟨.start steps flush, seen⟩
    let accepted := out.2.state.taken.reverse
    accepted <+: q.line ∧
    (out.1 = .ok () ↔ accepted = q.line ∧ out.2.state.flushed = true) ∧
    (out.1 = .ok () → out.2.seen = ⟨.outbound, peer, q.line⟩ :: seen) ∧
    (out.1 ≠ .ok () → out.2.seen = seen) ∧
    (accepted = q.line → out.1 = flush.result limit) ∧
    (accepted ≠ q.line → ∃ used a rest e, steps = used ++ a :: rest ∧
      (∀ b ∈ used, b.refusal? limit = none) ∧ accepted = q.line.take (used.map room).sum ∧
      a.refusal? limit = some e ∧ out.1 = .error e) := by
  intro out accepted
  have hout : out = q.sendWatched Script.sink limit (some peer) ⟨.start steps flush, seen⟩ := rfl
  rw [sendWatched_eq] at hout
  have hoffered := offered_writeAll limit q.line (.start steps flush)
  rcases hrun : writeAll Script.sink limit q.line (.start steps flush) with ⟨x, s'⟩
  rw [hrun] at hoffered
  cases hoffered with
  | all used rest hsteps hused =>
    rw [send_of_taken hrun] at hout
    dsimp only [Script.start] at hout
    have haccepted : accepted = q.line := by simp [accepted, hout]
    refine ⟨haccepted ▸ List.prefix_refl _, ?_, ?_, ?_, fun _ => by rw [hout],
      fun h => absurd haccepted h⟩
    · cases flush <;> simp [haccepted, hout, Flushed.result]
    · cases flush <;> simp [hout, Flushed.result]
    · cases flush <;> simp [hout, Flushed.result]
  | refused used a rest hsteps hused ha hleft =>
    rw [send_of_refused hrun] at hout
    have haccepted : accepted = q.line.take (used.map room).sum := by
      simp [accepted, hout, Script.start]
    have hne : accepted ≠ q.line := by
      intro h
      have hlen := congrArg List.length (haccepted.symm.trans h)
      rw [List.length_take] at hlen
      omega
    refine ⟨haccepted ▸ List.take_prefix _ _, ?_, ?_, ?_, fun h => absurd h hne, fun _ => ?_⟩
    · simp [hout, hne]
    · simp [hout]
    · simp [hout]
    · exact ⟨used, a, rest, _, hsteps, hused, haccepted, ha, by rw [hout]⟩

/-- A writer that stalls after three bytes, and one that takes the rest after them. -/
theorem sendWatched_script_get :
    let q : Request := ⟨.get, [.text (some "k") .base64]⟩
    let limit := Duration.ofSecs 5
    let stalled := q.sendWatched Script.sink (some limit) (some "node")
      ⟨.start [.upTo 3, .silence] .done, []⟩
    let sent := q.sendWatched Script.sink none (some "node") ⟨.start [.upTo 3] .done, []⟩
    (stalled.1 = .error (.timeout limit) ∧ stalled.2.seen = []) ∧
      sent.1 = .ok () ∧ sent.2.seen = [⟨.outbound, "node", q.line⟩] := by
  intro q limit stalled sent
  obtain ⟨-, -, -, hunseen, -, hrefused⟩ :=
    q.sendWatched_script [.upTo 3, .silence] .done (some limit) "node" []
  obtain ⟨-, hsent, hseen, -⟩ := q.sendWatched_script [.upTo 3] .done none "node" []
  have hstalled : stalled.1 = .error (.timeout limit) := by
    obtain ⟨used, a, rest, e, hsteps, -, -, ha, he⟩ := hrefused (by decide +kernel)
    rcases used with _ | ⟨u, _ | ⟨v, used⟩⟩
    · cases hsteps
      cases ha
    · cases hsteps
      cases ha
      exact he
    · simp at hsteps
  have hfailed : stalled.1 ≠ .ok () := fun h => nomatch hstalled.symm.trans h
  have hok : sent.1 = .ok () := hsent.2 ⟨by decide +kernel, by decide +kernel⟩
  exact ⟨⟨hstalled, hunseen hfailed⟩, hok, hseen hok⟩

end Request

end TagStore
