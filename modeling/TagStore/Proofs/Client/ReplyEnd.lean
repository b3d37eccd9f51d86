import TagStore.Proofs.Client.RequestLine
import TagStore.Proofs.Wire.Boundary

/-!
# Where a reply ends

A complete reply is one line, or several lines of which the last is the closing line, as the request
asks for it (`Wire.Complete`). No complete reply goes on where another one ends
(`Wire.Complete.eq_of_start`).

The closing line is known by its first field alone. So a reply of several lines that is decoded is
taken to its end if no other line opens with the field of the closing line (`Wire.Plain`,
`Operation.unread_of_decoded`), and only then, if each line carries the fields that are read of it
(`Operation.plain_of_decoded`).
-/

namespace TagStore

open Wire

namespace Wire

/-- The line that closes a reply of several lines. -/
def endLine : Bytes := endMarker ++ [lineEnd]

/-- Whether a request is answered by several lines. -/
def AsksForLines (request : Bytes) : Prop :=
  firstField request = digits Opcode.getMulti.code ∨
    firstField request = digits Opcode.getPairsByTag.code

instance (request : Bytes) : Decidable (AsksForLines request) :=
  inferInstanceAs (Decidable (_ ∨ _))

/-- Whether bytes are a whole reply to a request. -/
def Complete (request reply : Bytes) : Prop :=
  if AsksForLines request then
    ∃ ls : List Bytes, (∀ l ∈ ls, IsLine l ∧ l ≠ endLine) ∧ reply = ls.flatten ++ endLine
  else IsLine reply

/-- Whether no line of a reply but the last opens with the field of the closing line. -/
def Plain (reply : Bytes) : Prop := ∀ l ∈ (linesOf reply).dropLast, firstField l ≠ endMarker

instance (reply : Bytes) : Decidable (Plain reply) :=
  inferInstanceAs (Decidable (∀ l ∈ (linesOf reply).dropLast, firstField l ≠ endMarker))

theorem isLine_endLine : IsLine endLine := ⟨endMarker, by decide, rfl⟩

theorem linesOf_closed {ls : List Bytes} (h : ∀ l ∈ ls, IsLine l) (c : Bytes) :
    linesOf (ls.flatten ++ endLine ++ c) = ls ++ endLine :: linesOf c := by
  rw [List.append_assoc, linesOf_flatten h, isLine_endLine.linesOf_append]

theorem plain_closed {ls : List Bytes} (h : ∀ l ∈ ls, IsLine l) :
    Plain (ls.flatten ++ endLine) ↔ ∀ l ∈ ls, firstField l ≠ endMarker := by
  have hl := linesOf_closed h []
  rw [List.append_nil, show linesOf [] = [] from rfl] at hl
  rw [Plain, hl, List.dropLast_concat]

/-- **No complete reply goes on where another one ends.** -/
theorem Complete.eq_of_start {request b c : Bytes} (hb : Complete request b)
    (hc : Complete request c) (h : b <+: c) : b = c := by
  unfold Complete at hb hc
  split at hb
  · rename_i hr
    rw [if_pos hr] at hc
    obtain ⟨ls, hls, rfl⟩ := hb
    obtain ⟨ms, hms, rfl⟩ := hc
    obtain ⟨d, hd⟩ := h
    have h₁ := linesOf_closed (fun l hl => (hls l hl).1) d
    have h₂ := linesOf_closed (fun l hl => (hms l hl).1) []
    rw [hd, ← List.append_nil (ms.flatten ++ endLine), h₂] at h₁
    -- a closing line stands at the end of both
    obtain ⟨rfl, -⟩ : ms = ls ∧ linesOf d = [] := by
      rcases List.append_eq_append_iff.1 h₁ with ⟨e, rfl, he⟩ | ⟨e, rfl, he⟩
      · cases e with
        | nil =>
          simp only [List.nil_append, List.cons.injEq, true_and] at he
          exact ⟨by simp, he.symm⟩
        | cons l e => exact absurd (List.cons.inj he).1.symm (hls l (by simp)).2
      · cases e with
        | nil =>
          simp only [List.nil_append, List.cons.injEq, true_and] at he
          exact ⟨by simp, he⟩
        | cons l e => exact absurd (List.cons.inj he).1.symm (hms l (by simp)).2
    rfl
  · rename_i hr
    rw [if_neg hr] at hc
    exact hb.eq_of_start hc h

end Wire

theorem Request.firstField_line (r : Request) : firstField r.line = digits r.opcode.code := by
  have hc := contained_digits r.opcode.code
  have hd : ∀ y ∈ digits r.opcode.code, y ≠ fieldSeparator ∧ y ≠ lineEnd := fun y hy =>
    ⟨fun h => hc.1 (h ▸ hy), fun h => hc.2 (h ▸ hy)⟩
  rw [Request.line, List.append_assoc]
  cases r.fields with
  | nil => exact Wire.firstField_append [] hd (.inr rfl)
  | cons f fs => exact Wire.firstField_append _ hd (.inl rfl)

namespace Replying

open AtHand

variable {α : Type}

theorem lift_eq_ok {m : Reading Unit α} {r r' : Reader Unit} {a : α}
    (h : lift m r = (.ok a, r')) : m r = (.ok a, r') := by
  rw [lift] at h
  split at h <;> rename_i hm
  · cases h
    exact hm
  · cases h

theorem advances_lift {m : Reading Unit α} (h : Advances m) : Advances (lift m) :=
  fun r a r' hr => h r a r' (lift_eq_ok hr)

theorem finishes_lift {m : Reading Unit α} (h : Finishes m) : Finishes (lift m) :=
  fun r a r' hr => h r a r' (lift_eq_ok hr)

theorem advances_ofExcept (x : Except ClientError α) :
    Advances (ofExcept x : Replying Unit α) := by
  cases x with
  | ok a => exact advances_pure a
  | error e => rintro r a r' ⟨⟩

/-! ## Replies of one line -/

/-- A reply that is one line is taken to its end by what takes some of it and finishes. -/
theorem unread_of_isLine {m : Replying Unit α} {b : Bytes} {r' : Reader Unit} {a : α}
    (hb : IsLine b) (ha : Advances m) (hf : Finishes m)
    (ht : r'.buffer.unread.length < b.length) (h : m (.holding b true) = (.ok a, r')) :
    r'.buffer.unread = [] := by
  obtain ⟨used, hu, hl⟩ := ha _ a r' h
  rcases hl (hf _ a r' h) with ⟨rfl, -⟩ | he
  · rw [List.nil_append] at hu
    rw [← hu] at ht
    exact absurd ht (Nat.lt_irrefl _)
  · exact hb.eq_nil_of_endsLine hu he

/-- A first step that takes a field, before steps that take no bytes from elsewhere. -/
theorem length_lt_of_opcode {β : Type} {op : Opcode} {f : Unit → Replying Unit β}
    {r r' : Reader Unit} {b : β} (hf : ∀ a, Advances (f a))
    (h : (lift (Reading.expectOpcode .ended op) >>= f) r = (.ok b, r')) :
    r'.buffer.unread.length < r.buffer.unread.length := by
  obtain ⟨_, r₁, h₁, h₂⟩ := bind_eq_ok h
  obtain ⟨n, r₂, hn, hc⟩ := bind_eq_ok (lift_eq_ok h₁)
  obtain ⟨-, rfl⟩ := Reading.ofExcept_eq_ok hc
  have hlt := Reading.load_parsed .ended _ hn
  obtain ⟨used, hu, -⟩ := hf _ r₁ b r' h₂
  have hle := congrArg List.length hu
  simp only [Reader.load, Source.ended, List.length_append] at hlt hle
  omega

theorem advances_body {success : Reading Unit α} {complaint : String → Except ClientError α}
    (hs : Advances success) (status : Status) :
    Advances (body .ended success complaint status) := by
  cases status with
  | ok => exact advances_lift hs
  | failed =>
    exact (advances_lift (Reading.advances_parsed _)).bind fun _ => advances_ofExcept _

/-- **A reply of one line that is decoded is taken to its end.** -/
theorem unread_of_single {op : Opcode} {success : Reading Unit α}
    {complaint : String → Except ClientError α} {b : Bytes} {r' : Reader Unit} {a : α}
    (hs : Advances success) (hb : IsLine b)
    (h : single .ended op success complaint (.holding b true) = (.ok a, r')) :
    r'.buffer.unread = [] := by
  have hrest : ∀ u, Advances ((fun _ : Unit => do
      let status ← lift (Reading.status .ended)
      let a ← body .ended success complaint status
      lift (Reading.finish .ended)
      pure a : Unit → Replying Unit α) u) := fun _ =>
    (advances_lift (Reading.advances_parsed _)).bind fun status =>
      (advances_body hs status).bind fun a =>
        (advances_lift Reading.advances_finish).bind fun _ => advances_pure a
  refine unread_of_isLine hb ((advances_lift (Reading.advances_expectOpcode op)).bind hrest) ?_
    (length_lt_of_opcode hrest h) h
  exact .bind fun _ => .bind fun _ => .bind fun a =>
    (finishes_lift Reading.finishes_finish).pure a

/-- A banner that is decoded is taken to its end. -/
theorem unread_of_banner {b : Bytes} {r' : Reader Unit} {a : String} (hb : IsLine b)
    (h : banner .ended (.holding b true) = (.ok a, r')) : r'.buffer.unread = [] := by
  have hrest : ∀ u, Advances ((fun _ : Unit => do
      let text ← lift (Reading.string .ended .raw)
      lift (Reading.finish .ended)
      pure (text.getD "") : Unit → Replying Unit String) u) := fun _ =>
    (advances_lift (Reading.advances_parsed _)).bind fun text =>
      (advances_lift Reading.advances_finish).bind fun _ => advances_pure _
  refine unread_of_isLine hb ((advances_lift (Reading.advances_expectOpcode _)).bind hrest) ?_
    (length_lt_of_opcode hrest h) h
  exact .bind fun _ => .bind fun text => (finishes_lift Reading.finishes_finish).pure _

theorem advances_versioned (codec : PayloadCodec) : Advances (versioned codec .ended) :=
  (Reading.advances_parsed _).bind fun _ => (Reading.advances_parsed _).bind fun _ =>
    advances_pure _

theorem advances_pair (keys : Encoding) (codec : PayloadCodec) :
    Advances (pair keys codec .ended) :=
  (Reading.advances_parsed _).bind fun _ => (Reading.advances_parsed _).bind fun _ =>
    advances_pure _

/-! ## Replies of several lines -/

variable {op : Opcode} {success : Reading Unit (Option α)} {r r' : Reader Unit}

theorem advances_lineRest (hs : Advances success) : Advances (lineRest .ended success) := by
  refine (Reading.advances_parsed _).bind fun status => Advances.bind ?_ fun a =>
    Reading.advances_finish.bind fun _ => advances_pure a
  cases status with
  | ok => exact hs
  | failed => exact (Reading.advances_parsed _).bind fun _ => advances_pure none

/-- A line that is not the closing one is passed over up to the end of a line. -/
theorem line_eq_some {a : Option α} (hs : Advances success)
    (h : line .ended op success r = (.ok (some a), r')) :
    r.Passes r' ∧ r'.atLineEnd = true ∧
      r'.buffer.unread.length < r.buffer.unread.length := by
  obtain ⟨more, r₁, h₁, h₂⟩ := bind_eq_ok h
  have hlt := Reading.load_parsed .ended _ h₁
  simp only [Reader.load, Source.ended] at hlt
  cases more with
  | false => cases h₂
  | true =>
    obtain ⟨b, r₂, h₃, h₄⟩ := bind_eq_ok h₂
    obtain rfl : r₂ = r' := by cases h₄; rfl
    have hp := advances_lineRest hs r₁ b r₂ h₃
    obtain ⟨used, hu, -⟩ := id hp
    have hle := congrArg List.length hu
    rw [List.length_append] at hle
    refine ⟨(Reading.advances_parsed _ r true r₁ h₁).trans hp, ?_, by omega⟩
    have hf : Finishes (lineRest .ended success) := .bind fun _ => .bind fun b =>
      Reading.finishes_finish.pure b
    exact hf r₁ b r₂ h₃

/-- A line that opens with the field of the closing line is taken for it. -/
theorem firstField_ne_of_line {a : Option α}
    (h : line .ended op success r = (.ok (some a), r')) :
    firstField r.buffer.unread ≠ endMarker := by
  obtain ⟨more, r₁, h₁, h₂⟩ := bind_eq_ok h
  obtain ⟨hp, -⟩ := Reading.parsed_eq_ok h₁
  intro hf
  simp only [if_pos hf, Except.ok.injEq] at hp
  rw [← hp] at h₂
  cases h₂

/-- The closing line is known by its first field. -/
theorem line_eq_none (h : line .ended op success r = (.ok none, r')) :
    ∃ x, r.buffer.unread = endMarker ++ x :: r'.buffer.unread ∧
      firstField r.buffer.unread = endMarker := by
  obtain ⟨more, r₁, h₁, h₂⟩ := bind_eq_ok h
  cases more with
  | true =>
    obtain ⟨b, r₂, -, h₄⟩ := bind_eq_ok h₂
    cases h₄
  | false =>
    cases h₂
    obtain ⟨hp, x, hx⟩ := Reading.parsed_eq_ok h₁
    have hf : firstField r.buffer.unread = endMarker := by
      apply Decidable.byContradiction
      intro hne
      simp only [if_neg hne] at hp
      cases hn : Wire.number (firstField r.buffer.unread) with
      | error e => rw [hn] at hp; cases hp
      | ok n =>
        rw [hn] at hp
        cases hc : Wire.checkOpcode op n <;> simp [Except.bind, hc, Except.map] at hp
    exact ⟨x, hf ▸ hx, hf⟩

/-- What is decoded of several lines, line by line. -/
theorem linesFrom_eq_ok {hs : Reading.Shrinks .ended success} {acc as : List α}
    (h : linesFrom .ended op success hs acc r = (.ok as, r')) :
    line .ended op success r = (.ok none, r') ∨ ∃ a r₁,
      line .ended op success r = (.ok (some a), r₁) ∧
        linesFrom .ended op success hs (a.toList ++ acc) r₁ = (.ok as, r') := by
  rw [linesFrom_eq] at h
  obtain ⟨_ | a, r₁, h₁, h₂⟩ := bind_eq_ok h
  · cases h₂
    exact .inl h₁
  · exact .inr ⟨a, r₁, h₁, h₂⟩

/-- No line is decoded where there are no bytes. -/
theorem unread_ne_nil_of_linesFrom {hs : Reading.Shrinks .ended success} {acc as : List α}
    (h : linesFrom .ended op success hs acc r = (.ok as, r')) : r.buffer.unread ≠ [] := by
  have hline : ∀ x r₁, line .ended op success r = (.ok x, r₁) → r.buffer.unread ≠ [] := by
    intro x r₁ h₁
    obtain ⟨more, r₂, h₂, -⟩ := bind_eq_ok h₁
    obtain ⟨-, y, hy⟩ := Reading.parsed_eq_ok h₂
    rw [hy]
    simp
  rcases linesFrom_eq_ok h with h₁ | ⟨a, r₁, h₁, -⟩
  · exact hline _ _ h₁
  · exact hline _ _ h₁

/-- **A reply of several lines that is decoded is taken to its end**, if none of them but the last
opens with the field of the closing line. -/
theorem unread_of_linesFrom (hsucc : Advances success) {hs : Reading.Shrinks .ended success}
    {ls : List Bytes} {acc as : List α} (hls : ∀ l ∈ ls, IsLine l ∧ firstField l ≠ endMarker)
    (hu : r.buffer.unread = ls.flatten ++ endLine) (ha : r.atLineEnd = true)
    (h : linesFrom .ended op success hs acc r = (.ok as, r')) : r'.buffer.unread = [] := by
  induction hn : ls.length using Nat.strongRecOn generalizing ls acc r with
  | ind n ih =>
    rcases linesFrom_eq_ok h with h₁ | ⟨a, r₁, h₁, h₂⟩
    · obtain ⟨x, hx, hf⟩ := line_eq_none h₁
      cases ls with
      | nil =>
        have hx : endMarker ++ x :: r'.buffer.unread = endMarker ++ [lineEnd] := hx.symm.trans hu
        exact (List.cons.inj (List.append_cancel_left hx)).2
      | cons l ls =>
        obtain ⟨hl, hne⟩ := hls l List.mem_cons_self
        rw [hu, List.flatten_cons, List.append_assoc, hl.firstField_append] at hf
        exact absurd hf hne
    · obtain ⟨⟨used, hused, hend⟩, ha₁, hlt⟩ := line_eq_some hsucc h₁
      have he : EndsLine used := by
        rcases hend ha₁ with ⟨rfl, -⟩ | he
        · rw [List.nil_append] at hused
          rw [hused] at hlt
          exact absurd hlt (Nat.lt_irrefl _)
        · exact he
      -- the line stops between two lines of the reply
      have hall : ∀ l ∈ ls ++ [endLine], IsLine l := fun l hl => by
        rcases List.mem_append.1 hl with hl | hl
        · exact (hls l hl).1
        · obtain rfl := List.mem_singleton.1 hl
          exact isLine_endLine
      obtain ⟨front, back, hfb, rfl, hback⟩ := eq_flatten_of_endsLine hall
        (by rw [List.flatten_append, ← hused, hu]; simp) he
      obtain rfl | ⟨rest, rfl, hrest⟩ := List.suffix_concat_iff.1 ⟨front, hfb.symm⟩
      · exact absurd hback (unread_ne_nil_of_linesFrom h₂)
      · have hlen := congrArg List.length hfb
        have hfront : front ≠ [] := fun h => he.ne_nil (by rw [h]; rfl)
        have hpos := List.length_pos_iff.2 hfront
        simp only [List.length_append, List.length_singleton] at hlen
        exact ih rest.length (by omega) (fun l hl => hls l (hrest.subset hl))
          (by rw [hback]; simp) ha₁ h₂ rfl

/-- Whether a line carries the fields that are read of it: decoding it alone does not ask for more
bytes. -/
def Suffices (op : Opcode) (success : Reading Unit (Option α)) (l : Bytes) : Prop :=
  (line .ended op success (.holding l true)).1 ≠ .error Reader.endOfStream

/-- A line that carries the fields that are read of it is passed over and no more. -/
theorem unread_of_suffices (hs : Advances success)
    (hagree : ∀ r, Reading.AgreesAt .ended success success r) {l c : Bytes} {a : Option α}
    (hl : IsLine l) (hsuff : Suffices op success l)
    (h : line .ended op success (.holding (l ++ c) true) = (.ok (some a), r')) :
    r' = .holding c true := by
  have ht : Reading.Trace .ended (line .ended op success) (.holding l true) _ _ :=
    (agreesAt_line op hagree (.holding l true)).2
  rw [Suffices] at hsuff
  generalize (line .ended op success (.holding l true)).2 = r₁ at ht
  generalize (line .ended op success (.holding l true)).1 = x at ht hsuff
  cases ht with
  | @settled x got used hb hu hm =>
    rw [hb.eq_nil_of_ended, List.append_nil] at hu
    have hu : l = used ++ r₁.buffer.unread := hu
    have hrun := hm (r₁.buffer.unread ++ c)
    rw [← List.append_assoc, ← hu] at hrun
    obtain ⟨rfl, rfl⟩ := Prod.mk.inj (hrun.symm.trans h)
    obtain ⟨⟨used', hused, hend⟩, ha, hlt⟩ := line_eq_some hs h
    have heq : used' = used := by
      have hused : l ++ c = used' ++ (r₁.buffer.unread ++ c) := hused
      rw [hu, List.append_assoc] at hused
      exact (List.append_cancel_right hused).symm
    subst heq
    rcases hend ha with ⟨rfl, -⟩ | he
    · rw [List.nil_append] at hused
      rw [hused] at hlt
      exact absurd hlt (Nat.lt_irrefl _)
    · rw [hl.eq_nil_of_endsLine hu he, show r₁.atLineEnd = true from ha]
      rfl
  | starved hb hr hy =>
    cases hr
    exact absurd rfl hsuff
  | @overlong got run hb hrun hsep hend hlen =>
    rw [hb.eq_nil_of_ended, List.append_nil] at hrun
    obtain ⟨body, -, rfl⟩ := hl
    obtain rfl | ⟨t, rfl, -⟩ := List.suffix_concat_iff.1 hrun
    · exact absurd hlen (by simp)
    · exact absurd hend (by simp)

/-- **A reply of several lines that is decoded to its end has no other line that opens with the
field of the closing line**, if each line carries the fields that are read of it. -/
theorem plain_of_linesFrom (hsucc : Advances success)
    (hagree : ∀ r, Reading.AgreesAt .ended success success r)
    {hs : Reading.Shrinks .ended success} {ls : List Bytes} {acc as : List α}
    (hls : ∀ l ∈ ls, IsLine l ∧ Suffices op success l)
    (h : linesFrom .ended op success hs acc (.holding (ls.flatten ++ endLine) true) =
      (.ok as, r')) (hr : r'.buffer.unread = []) : ∀ l ∈ ls, firstField l ≠ endMarker := by
  induction ls generalizing acc with
  | nil => simp
  | cons l ls ih =>
    obtain ⟨hl, hsuff⟩ := hls l List.mem_cons_self
    rw [List.flatten_cons, List.append_assoc] at h
    rcases linesFrom_eq_ok h with h₁ | ⟨a, r₁, h₁, h₂⟩
    · -- the closing line follows, so more than one field is left
      obtain ⟨x, hx, -⟩ := line_eq_none h₁
      have hlen := congrArg List.length hx
      rw [hr] at hlen
      have hpos := List.length_pos_iff.2 hl.ne_nil
      simp only [Reader.unread_holding, List.length_append, endLine, endMarker, List.length_cons,
        List.length_nil] at hlen
      omega
    · obtain rfl := unread_of_suffices hsucc hagree hl hsuff h₁
      intro l' hl'
      rcases List.mem_cons.1 hl' with rfl | hl'
      · have hne := firstField_ne_of_line h₁
        rwa [Reader.unread_holding, hl.firstField_append] at hne
      · exact ih (fun l hl => hls l (List.mem_cons_of_mem _ hl)) h₂ l' hl'

end Replying

/-! ## Operations -/

namespace Operation

variable {α : Type}

/-- Whether the reply to an operation is of several lines. -/
def isStreamed : Operation α → Bool
  | getMulti _ | getPairsByTag _ => true
  | _ => false

/-- Whether a line of a reply of several carries the fields that the operation reads. -/
def Suffices (p : Profile) : Operation α → Bytes → Prop
  | getMulti _ => Replying.Suffices .getMulti (Reading.value .ended p.payload)
  | getPairsByTag _ => Replying.Suffices .getPairsByTag (Replying.pair p.keys p.payload .ended)
  | _ => fun _ => True

variable {op : Operation α} {p : Profile} {request : Request} {reply : Bytes}

theorem opcode_of_request (h : op.request p = .ok request) : request.opcode = op.opcode := by
  cases op with
  | init | version =>
    cases h
    rfl
  | set | add =>
    obtain ⟨v, payload, -, -, -, rfl⟩ := Profile.write_eq_ok h
    rfl
  | setVersioned =>
    obtain ⟨-, h⟩ := Profile.check_of_bind_ok h
    obtain ⟨v, payload, -, -, -, rfl⟩ := Profile.write_eq_ok h
    rfl
  | get | remove | getTagKeys | getVersioned | getMulti | getPairsByTag =>
    obtain ⟨-, h⟩ := Profile.check_of_bind_ok h
    cases h
    rfl

theorem asksForLines_iff (h : op.request p = .ok request) :
    AsksForLines request.line ↔ op.isStreamed = true := by
  rw [AsksForLines, Request.firstField_line, opcode_of_request h]
  cases op <;> simp only [opcode, isStreamed] <;> decide

/-- **A complete reply that is decoded is taken to its end**, if none of its lines but the last
opens with the field of the closing line. -/
theorem unread_of_decoded {a : α} {r' : Reader Unit} (h : op.request p = .ok request)
    (hc : Complete request.line reply) (hp : Plain reply)
    (hr : op.reply p .ended (.holding reply true) = (.ok a, r')) : r'.buffer.unread = [] := by
  have hs := asksForLines_iff h
  unfold Complete at hc
  cases op with
  | getMulti keys =>
    rw [if_pos (hs.2 rfl)] at hc
    obtain ⟨ls, hls, rfl⟩ := hc
    rw [plain_closed fun l hl => (hls l hl).1] at hp
    exact Replying.unread_of_linesFrom (Reading.advances_parsed _)
      (fun l hl => ⟨(hls l hl).1, hp l hl⟩) rfl rfl (Replying.lift_eq_ok hr)
  | getPairsByTag tag =>
    rw [if_pos (hs.2 rfl)] at hc
    obtain ⟨ls, hls, rfl⟩ := hc
    rw [plain_closed fun l hl => (hls l hl).1] at hp
    exact Replying.unread_of_linesFrom (Replying.advances_pair _ _)
      (fun l hl => ⟨(hls l hl).1, hp l hl⟩) rfl rfl (Replying.lift_eq_ok hr)
  | version =>
    rw [if_neg fun h => absurd (hs.1 h) (by decide)] at hc
    exact Replying.unread_of_banner hc hr
  | init =>
    rw [if_neg fun h => absurd (hs.1 h) (by decide)] at hc
    exact Replying.unread_of_single (Reading.advances_parsed _) hc hr
  | set | add | setVersioned =>
    rw [if_neg fun h => absurd (hs.1 h) (by simp [isStreamed])] at hc
    exact Replying.unread_of_single (AtHand.advances_pure _) hc hr
  | get | remove =>
    rw [if_neg fun h => absurd (hs.1 h) (by simp [isStreamed])] at hc
    exact Replying.unread_of_single (Reading.advances_parsed _) hc hr
  | getTagKeys =>
    rw [if_neg fun h => absurd (hs.1 h) (by simp [isStreamed])] at hc
    exact Replying.unread_of_single (Reading.advances_itemsFrom _ []) hc hr
  | getVersioned =>
    rw [if_neg fun h => absurd (hs.1 h) (by simp [isStreamed])] at hc
    exact Replying.unread_of_single (Replying.advances_versioned _) hc hr

/-- **A complete reply that is decoded to its end has no other line that opens with the field of the
closing line**, if each of its lines carries the fields that are read. -/
theorem plain_of_decoded {a : α} {r' : Reader Unit} (h : op.request p = .ok request)
    (hc : Complete request.line reply) (hw : ∀ l ∈ (linesOf reply).dropLast, op.Suffices p l)
    (hr : op.reply p .ended (.holding reply true) = (.ok a, r')) (hu : r'.buffer.unread = []) :
    Plain reply := by
  have hs := asksForLines_iff h
  unfold Complete at hc
  cases hst : op.isStreamed with
  | false =>
    rw [if_neg fun h => absurd (hs.1 h) (by rw [hst]; decide)] at hc
    have hl := hc.linesOf_append []
    rw [List.append_nil] at hl
    rw [Plain, hl]
    exact fun l hl => absurd hl List.not_mem_nil
  | true =>
    rw [if_pos (hs.2 hst)] at hc
    obtain ⟨ls, hls, rfl⟩ := hc
    have hlines := linesOf_closed (fun l hl => (hls l hl).1) []
    rw [List.append_nil, show linesOf [] = [] from rfl] at hlines
    rw [hlines, List.dropLast_concat] at hw
    rw [plain_closed fun l hl => (hls l hl).1]
    cases op with
    | getMulti keys =>
      exact Replying.plain_of_linesFrom (Reading.advances_parsed _) (Reading.agreesAt_parsed _)
        (fun l hl => ⟨(hls l hl).1, hw l hl⟩) (Replying.lift_eq_ok hr) hu
    | getPairsByTag tag =>
      exact Replying.plain_of_linesFrom (Replying.advances_pair _ _) (Replying.agreesAt_pair _ _)
        (fun l hl => ⟨(hls l hl).1, hw l hl⟩) (Replying.lift_eq_ok hr) hu
    | _ => cases hst

/-- The reply `END,22⏎END⏎` is taken for its closing line after four bytes. -/
example :
    ((getMulti ["k"]).reply ⟨.base64, .standard, none⟩ .ended
      (.holding [69, 78, 68, 44, 50, 50, 10, 69, 78, 68, 10] true)).2.buffer.unread =
      [50, 50, 10, 69, 78, 68, 10] := by
  decide +kernel

end Operation

end TagStore
