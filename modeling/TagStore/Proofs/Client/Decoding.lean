import TagStore.Client.Replying
import TagStore.Proofs.Wire.Trace

/-!
# Decoding a reply on a stream

What the client makes of a reply on a stream is what it makes of the bytes that it takes
(`Replying.FollowsAt`): a reply that is decoded takes a run of bytes, and the same run at hand
decodes to the same, whatever follows it. Where decoding fails, the failure is never one of sending
the request (`ClientError.IsLate`). Every reply there is follows this rule, whatever the stream.
-/

namespace TagStore

open Wire

/-- Whether an error may arise once the request has been sent. -/
def ClientError.IsLate : ClientError → Prop
  | io stage _ | timeout stage _ => stage = .response
  | protocol _ | operation _ _ | versionConflict _ => True
  | config _ | invalidArgument _ | noAvailableEndpoint _ _ => False

theorem ClientError.isLate_ofProtocol (e : ProtocolError) : (ofProtocol .response e).IsLate := by
  cases e <;> trivial

namespace Replying

variable {σ α β : Type} {src : Source σ}

/-- A reply on the stream `src` from `r` on is decoded by `m` as `m'` decodes it at hand. -/
structure FollowsAt (src : Source σ) (m : Replying σ α) (m' : Replying Unit α) (r : Reader σ) :
    Prop where
  capacity : (m r).2.buffer.capacity = r.buffer.capacity
  brings : ∃ got, src.Brings r.buffer.capacity r.stream got (m r).2.stream
  decodes : ∀ a, (m r).1 = .ok a → ∃ got used,
    src.Brings r.buffer.capacity r.stream got (m r).2.stream ∧
    r.buffer.unread ++ got = used ++ (m r).2.buffer.unread ∧
    ∀ more, m' (.holding (used ++ more) r.atLineEnd) = (.ok a, .holding more (m r).2.atLineEnd)
  late : ∀ e, (m r).1 = .error e → e.IsLate

theorem FollowsAt.bind {m : Replying σ α} {m' : Replying Unit α} {f : α → Replying σ β}
    {f' : α → Replying Unit β} {r : Reader σ} (hm : FollowsAt src m m' r)
    (hf : ∀ a r₁, FollowsAt src (f a) (f' a) r₁) : FollowsAt src (m >>= f) (m' >>= f') r := by
  obtain ⟨hc, ⟨got, hb⟩, hd, hl⟩ := hm
  rcases hx : m r with ⟨e | a, r₁⟩
  · have hrun : (m >>= f) r = (.error e, r₁) := by rw [Reader.bind_run, hx]
    rw [hx] at hc hb hl
    constructor <;> rw [hrun]
    · exact hc
    · exact ⟨got, hb⟩
    · rintro b ⟨⟩
    · rintro e' ⟨⟩
      exact hl e rfl
  · have hrun : (m >>= f) r = f a r₁ := by rw [Reader.bind_run, hx]
    obtain ⟨hc₁, ⟨got₁, hb₁⟩, hd₁, hl₁⟩ := hf a r₁
    rw [hx] at hc hb hd
    have hc : r₁.buffer.capacity = r.buffer.capacity := hc
    constructor <;> rw [hrun]
    · exact hc₁.trans hc
    · exact ⟨_, hb.trans (hc ▸ hb₁)⟩
    · intro b hb'
      obtain ⟨got, used, hb, hu, hm⟩ := hd a rfl
      obtain ⟨got', used', hb', hu', hm'⟩ := hd₁ b hb'
      refine ⟨got ++ got', used ++ used', hb.trans (hc ▸ hb'), ?_, fun more => ?_⟩
      · rw [← List.append_assoc, hu, List.append_assoc, hu', List.append_assoc]
      · rw [List.append_assoc, Reader.bind_run, hm]
        exact hm' more
    · exact hl₁

theorem followsAt_pure (a : α) (r : Reader σ) : FollowsAt src (pure a) (pure a) r where
  capacity := rfl
  brings := ⟨[], .refl _⟩
  decodes b hb := by
    obtain rfl : a = b := by cases hb; rfl
    exact ⟨[], [], .refl _, List.append_nil _, fun _ => rfl⟩
  late e he := by cases he

theorem followsAt_ofExcept {x : Except ClientError α} (hx : ∀ e, x = .error e → e.IsLate)
    (r : Reader σ) : FollowsAt src (ofExcept x) (ofExcept x) r := by
  cases x with
  | ok a => exact followsAt_pure a r
  | error e =>
    refine ⟨rfl, ⟨[], .refl _⟩, fun a ha => (by cases ha), ?_⟩
    rintro e' ⟨⟩
    exact hx e rfl

/-- A step of reading that agrees with the same step at hand is followed on behalf of a client. -/
theorem followsAt_lift {m : Reading σ α} {m' : Reading Unit α} {r : Reader σ}
    (h : Reading.AgreesAt src m m' r) : FollowsAt src (lift m) (lift m') r := by
  have hrun : lift m r = ((m r).1.mapError (.ofProtocol .response), (m r).2) := by
    rw [lift]
    rcases m r with ⟨_ | _, _⟩ <;> rfl
  constructor <;> rw [hrun]
  · exact h.1
  · exact h.brings
  · obtain ⟨-, ht⟩ := h
    intro a ha
    generalize (m r).1 = x at ht ha
    cases x with
    | error e => cases ha
    | ok b =>
      cases ha
      cases ht with
      | settled _ hb hu hm => exact ⟨_, _, hb, hu, fun more => by rw [lift, hm]⟩
  · intro e he
    cases hx : (m r).1 with
    | ok a => rw [hx] at he; cases he
    | error e' =>
      rw [hx] at he
      cases he
      exact ClientError.isLate_ofProtocol e'

/-! ## Replies of one line -/

/-- What a complaint means is never a failure to send. -/
def IsLateComplaint (complaint : String → Except ClientError α) : Prop :=
  ∀ text e, complaint text = .error e → e.IsLate

theorem isLateComplaint_refused : IsLateComplaint (@refused α) := by
  rintro text e ⟨⟩
  trivial

theorem isLateComplaint_absentOr (nothing : α) : IsLateComplaint (absentOr nothing) := by
  intro text e h
  rw [absentOr] at h
  split at h
  · cases h
  · exact isLateComplaint_refused text e h

theorem isLateComplaint_notAdded : IsLateComplaint notAdded := by
  intro text e h
  rw [notAdded] at h
  split at h
  · cases h
  · exact isLateComplaint_refused text e h

theorem isLateComplaint_notCurrent : IsLateComplaint notCurrent := by
  intro text e h
  rw [notCurrent] at h
  split at h
  · cases h
    trivial
  · exact isLateComplaint_refused text e h

theorem followsAt_single (op : Opcode) {success : Reading σ α} {success' : Reading Unit α}
    {complaint : String → Except ClientError α}
    (hs : ∀ r, Reading.AgreesAt src success success' r) (hc : IsLateComplaint complaint)
    (r : Reader σ) :
    FollowsAt src (single src op success complaint) (single .ended op success' complaint) r := by
  apply (followsAt_lift (Reading.agreesAt_expectOpcode op r)).bind
  intro _ r
  apply (followsAt_lift (Reading.agreesAt_parsed _ r)).bind
  intro status r
  refine FollowsAt.bind ?_ fun a r => ?_
  · cases status with
    | ok => exact followsAt_lift (hs r)
    | failed =>
      apply (followsAt_lift (Reading.agreesAt_parsed _ r)).bind
      intro text r
      exact followsAt_ofExcept (hc _) r
  · exact (followsAt_lift (Reading.agreesAt_finish src r)).bind fun _ r => followsAt_pure a r

theorem followsAt_banner (r : Reader σ) : FollowsAt src (banner src) (banner .ended) r := by
  apply (followsAt_lift (Reading.agreesAt_expectOpcode _ r)).bind
  intro _ r
  apply (followsAt_lift (Reading.agreesAt_parsed _ r)).bind
  intro text r
  exact (followsAt_lift (Reading.agreesAt_finish src r)).bind fun _ r => followsAt_pure _ r

theorem agreesAt_versioned (codec : PayloadCodec) (r : Reader σ) :
    Reading.AgreesAt src (versioned codec src) (versioned codec .ended) r :=
  (Reading.agreesAt_parsed _ r).bind fun _ r _ =>
    (Reading.agreesAt_parsed _ r).bind fun _ r _ => Reading.agreesAt_pure _ r

/-! ## Replies of several lines -/

theorem agreesAt_line (op : Opcode) {success : Reading σ (Option α)}
    {success' : Reading Unit (Option α)} (hs : ∀ r, Reading.AgreesAt src success success' r)
    (r : Reader σ) :
    Reading.AgreesAt src (line src op success) (line .ended op success') r := by
  apply (Reading.agreesAt_parsed _ r).bind
  intro more r _
  cases more with
  | false => exact Reading.agreesAt_pure none r
  | true =>
    refine Reading.AgreesAt.bind ?_ fun a r _ => Reading.agreesAt_pure (some a) r
    apply (Reading.agreesAt_parsed _ r).bind
    intro status r _
    refine Reading.AgreesAt.bind ?_ fun a r _ =>
      (Reading.agreesAt_finish src r).bind fun _ r _ => Reading.agreesAt_pure a r
    cases status with
    | ok => exact hs r
    | failed =>
      exact (Reading.agreesAt_parsed _ r).bind fun _ r _ => Reading.agreesAt_pure none r

/-- One line of several and those after it. -/
theorem linesFrom_eq (src : Source σ) (op : Opcode) (success : Reading σ (Option α))
    (hs : Reading.Shrinks src success) (acc : List α) :
    linesFrom src op success hs acc = (do
      match ← line src op success with
      | some a => linesFrom src op success hs (a.toList ++ acc)
      | none => pure acc.reverse : Reading σ (List α)) := by
  funext r
  rw [Reader.bind_run, linesFrom]
  cases line src op success r with
  | mk x r' => rcases x with e | _ | a <;> rfl

theorem agreesAt_linesFrom (op : Opcode) {success : Reading σ (Option α)}
    {success' : Reading Unit (Option α)} (hs : ∀ r, Reading.AgreesAt src success success' r)
    (h : Reading.Shrinks src success) (h' : Reading.Shrinks .ended success') (acc : List α)
    (r : Reader σ) :
    Reading.AgreesAt src (linesFrom src op success h acc) (linesFrom .ended op success' h' acc)
      r := by
  induction hn : r.load src using Nat.strongRecOn generalizing acc r with
  | ind n ih =>
    rw [linesFrom_eq src, linesFrom_eq .ended]
    apply (agreesAt_line op hs r).bind
    intro x r₁ h₁
    cases x with
    | none => exact Reading.agreesAt_pure _ r₁
    | some a => exact ih _ (hn ▸ load_line h h₁) _ r₁ rfl

theorem followsAt_several (op : Opcode) {success : Reading σ (Option α)}
    {success' : Reading Unit (Option α)} (hs : ∀ r, Reading.AgreesAt src success success' r)
    (h : Reading.Shrinks src success) (h' : Reading.Shrinks .ended success') (r : Reader σ) :
    FollowsAt src (several src op success h) (several .ended op success' h') r :=
  followsAt_lift (agreesAt_linesFrom op hs h h' [] r)

theorem agreesAt_pair (keys : Encoding) (codec : PayloadCodec) (r : Reader σ) :
    Reading.AgreesAt src (pair keys codec src) (pair keys codec .ended) r :=
  (Reading.agreesAt_parsed _ r).bind fun _ r _ =>
    (Reading.agreesAt_parsed _ r).bind fun _ r _ => Reading.agreesAt_pure _ r

end Replying

end TagStore
