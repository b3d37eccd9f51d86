import Mathlib.Data.List.TakeWhile
import TagStore.Proofs.Wire.AtHand

/-!
# Steps of reading on a stream

`Reading.AgreesAt src m m' r` says that the step `m`, which reads `src` from `r` on, makes of the
bytes of the stream what `m'` makes of them at hand. Steps of one field and the end of a line agree,
and so does every step that is put together from these.
-/

namespace TagStore

open Wire

namespace Reading

variable {σ α β : Type}

/-- What a step of reading on a stream comes to, from the reader `r` to the reader `r'`. -/
inductive Trace (src : Source σ) (m' : Reading Unit α) (r r' : Reader σ) :
    Except ProtocolError α → Prop
  /-- The step takes `used` and leaves the rest of what was brought. -/
  | settled {x : Except ProtocolError α} {got : Bytes} (used : Bytes) :
    src.Brings r.buffer.capacity r.stream got r'.stream →
    r.buffer.unread ++ got = used ++ r'.buffer.unread →
    (∀ more, m' (.holding (used ++ more) r.atLineEnd) = (x, .holding more r'.atLineEnd)) →
    Trace src m' r r' x
  /-- A read brings nothing more, before the step has come to its end. -/
  | starved {got : Bytes} {s : σ} {y : Received} :
    src.Brings r.buffer.capacity r.stream got s →
    src.read r.buffer.capacity s = (y, r'.stream) → y.taken = [] → r'.buffer.unread = [] →
    m' (.holding (r.buffer.unread ++ got) r.atLineEnd) =
      (.error Reader.endOfStream, .holding [] r'.atLineEnd) →
    Trace src m' r r' (.error (src.fault y))
  /-- The bytes brought end in a run that no field may hold. -/
  | overlong {got run : Bytes} :
    src.Brings r.buffer.capacity r.stream got r'.stream →
    run <:+ r.buffer.unread ++ got → fieldSeparator ∉ run → lineEnd ∉ run →
    maxFieldSize < run.length → Trace src m' r r' (.error Reader.tooLong)

/-- A step reads `src` from `r` on as the step `m'` reads bytes at hand. -/
def AgreesAt (src : Source σ) (m : Reading σ α) (m' : Reading Unit α) (r : Reader σ) : Prop :=
  (m r).2.buffer.capacity = r.buffer.capacity ∧ Trace src m' r (m r).2 (m r).1

variable {src : Source σ}

/-- Every step of reading takes what it takes from the stream. -/
theorem AgreesAt.brings {m : Reading σ α} {m' : Reading Unit α} {r : Reader σ}
    (h : AgreesAt src m m' r) :
    ∃ got, src.Brings r.buffer.capacity r.stream got (m r).2.stream := by
  obtain ⟨-, h⟩ := h
  generalize (m r).1 = x at h
  cases h with
  | settled _ hb => exact ⟨_, hb⟩
  | starved hb hx => exact ⟨_, hb.read hx⟩
  | overlong hb => exact ⟨_, hb⟩

theorem agreesAt_pure (x : α) (r : Reader σ) : AgreesAt src (pure x) (pure x) r :=
  ⟨rfl, .settled [] (.refl _) (List.append_nil _) fun _ => rfl⟩

theorem agreesAt_ofExcept (x : Except ProtocolError α) (r : Reader σ) :
    AgreesAt src (ofExcept x) (ofExcept x) r := by
  cases x with
  | ok a => exact agreesAt_pure a r
  | error e => exact ⟨rfl, .settled [] (.refl _) (List.append_nil _) fun _ => rfl⟩

/-- A step that first passes over `used` has the trace of what it does then. -/
theorem Trace.prepend {m' k' : Reading Unit α} {r r' : Reader σ} (r₁ : Reader σ)
    {x : Except ProtocolError α} {got used : Bytes}
    (hb : src.Brings r.buffer.capacity r.stream got r₁.stream)
    (hu : r.buffer.unread ++ got = used ++ r₁.buffer.unread)
    (hc : r₁.buffer.capacity = r.buffer.capacity)
    (hk : ∀ more, k' (.holding (used ++ more) r.atLineEnd) = m' (.holding more r₁.atLineEnd))
    (h : Trace src m' r₁ r' x) : Trace src k' r r' x := by
  have hassoc : ∀ got', r.buffer.unread ++ (got ++ got') = used ++ (r₁.buffer.unread ++ got') :=
    fun got' => by rw [← List.append_assoc, hu, List.append_assoc]
  cases h with
  | @settled _ got' used' hb' hu' hm =>
    refine .settled (used ++ used') (hb.trans (hc ▸ hb')) ?_ fun more => ?_
    · rw [hassoc, hu', List.append_assoc]
    · rw [List.append_assoc, hk, hm]
  | starved hb' hx ht hn hm =>
    refine .starved (hb.trans (hc ▸ hb')) (hc ▸ hx) ht hn ?_
    rw [hassoc, hk, hm]
  | overlong hb' hr hs hl hlen =>
    refine .overlong (hb.trans (hc ▸ hb')) ?_ hs hl hlen
    rw [hassoc]
    exact hr.trans (List.suffix_append _ _)

/-- **Steps that agree may be put together.** -/
theorem AgreesAt.bind {m : Reading σ α} {m' : Reading Unit α} {f : α → Reading σ β}
    {f' : α → Reading Unit β} {r : Reader σ} (hm : AgreesAt src m m' r)
    (hf : ∀ a r₁, m r = (.ok a, r₁) → AgreesAt src (f a) (f' a) r₁) :
    AgreesAt src (m >>= f) (m' >>= f') r := by
  obtain ⟨hc, ht⟩ := hm
  unfold AgreesAt
  rw [bind_run]
  rcases hx : m r with ⟨x, r₁⟩
  rw [hx] at hc ht
  cases x with
  | error e =>
    refine ⟨hc, ?_⟩
    cases ht with
    | settled used hb hu hm => exact .settled used hb hu fun more => by rw [bind_run, hm]
    | starved hb hr ht hn hm => exact .starved hb hr ht hn (by rw [bind_run, hm])
    | overlong hb hr hs hl hlen => exact .overlong hb hr hs hl hlen
  | ok a =>
    obtain ⟨hc', ht'⟩ := hf a r₁ hx
    refine ⟨hc'.trans hc, ?_⟩
    cases ht with
    | settled _ hb hu hm => exact ht'.prepend _ hb hu hc fun more => by rw [bind_run, hm]

/-! ## Fields and line ends -/

theorem agreesAt_field (src : Source σ) (split : Bool) (r : Reader σ) :
    AgreesAt src (field src split) (field .ended split) r := by
  obtain ⟨hc, hf⟩ := Reader.fieldRead_fieldFrom src split [] 0 r (Nat.zero_le _)
  refine ⟨hc, ?_⟩
  simp only [field]
  generalize (Reader.fieldFrom src split [] 0 r).1 = x at hf ⊢
  cases hf with
  | ends hb ht hl =>
    obtain ⟨used, hu, hmore⟩ := Reader.takeField_ends ht
    exact .settled _ hb hu fun more => by rw [Reader.fieldFrom_holding_ends 0 _ (hmore more), hl]
  | starved hb hx hxt ht hs hu hl =>
    exact .starved hb hx hxt hu (by rw [Reader.fieldFrom_holding_open _ ht hs, hl])
  | overlong hb ht hs =>
    obtain ⟨h1, h2⟩ := Reader.forall_of_takeField ht
    exact .overlong hb (List.suffix_refl _) h1 h2 (by simpa using hs)

theorem agreesAt_parsed (parse : Bytes → Except ProtocolError α) (r : Reader σ) :
    AgreesAt src (parsed src parse) (parsed .ended parse) r :=
  (agreesAt_field src false r).bind fun _ _ _ => agreesAt_ofExcept _ _

theorem skipLine_holding_true (b : Bytes) :
    Reader.skipLine .ended (.holding b true) = (.ok (), .holding b true) := by
  unfold Reader.skipLine
  rfl

theorem skipLine_holding_nil :
    Reader.skipLine .ended (.holding [] false) =
      (.error Reader.endOfStream, .holding [] false) := by
  unfold Reader.skipLine
  rfl

/-- Bytes at hand that have a line end are passed over up to it. -/
theorem skipLine_holding_of_dropWhile_cons {b rest : Bytes} {x : UInt8}
    (h : b.dropWhile (· ≠ lineEnd) = x :: rest) :
    Reader.skipLine .ended (.holding b false) = (.ok (), .holding rest true) := by
  cases b with
  | nil => cases h
  | cons c cs =>
    rw [Reader.skipLine, if_neg (by simp)]
    simp only [Reader.ensure_holding_cons, Reader.unread_holding, h, Reader.leaving_holding]

/-- Bytes at hand that have no line end are passed over to the last. -/
theorem skipLine_holding_of_dropWhile_nil {b : Bytes} (h : b.dropWhile (· ≠ lineEnd) = []) :
    Reader.skipLine .ended (.holding b false) =
      (.error Reader.endOfStream, .holding [] false) := by
  cases b with
  | nil => exact skipLine_holding_nil
  | cons c cs =>
    rw [Reader.skipLine, if_neg (by simp)]
    simp only [Reader.ensure_holding_cons, Reader.unread_holding, h, Reader.leaving_holding]
    exact skipLine_holding_nil

/-- Bytes at hand are passed over one by one. -/
theorem skipLine_holding_cons (c : UInt8) (cs : Bytes) :
    Reader.skipLine .ended (.holding (c :: cs) false) =
      if c = lineEnd then (.ok (), .holding cs true)
      else Reader.skipLine .ended (.holding cs false) := by
  by_cases hc : c = lineEnd
  · rw [if_pos hc]
    exact skipLine_holding_of_dropWhile_cons (List.dropWhile_cons_of_neg (by simpa using hc))
  · have hd : (c :: cs).dropWhile (· ≠ lineEnd) = cs.dropWhile (· ≠ lineEnd) :=
      List.dropWhile_cons_of_pos (by simpa using hc)
    rw [if_neg hc]
    cases h : cs.dropWhile (· ≠ lineEnd) with
    | nil =>
      rw [skipLine_holding_of_dropWhile_nil h, skipLine_holding_of_dropWhile_nil (hd.trans h)]
    | cons x rest =>
      rw [skipLine_holding_of_dropWhile_cons h, skipLine_holding_of_dropWhile_cons (hd.trans h)]

/-- The bytes of a line up to its end are passed over. -/
theorem skipLine_holding_line {b : Bytes} (more : Bytes) (h : lineEnd ∉ b) :
    Reader.skipLine .ended (.holding (b ++ more) false) =
      Reader.skipLine .ended (.holding more false) := by
  induction b with
  | nil => rfl
  | cons c cs ih =>
    rw [List.mem_cons, not_or] at h
    rw [List.cons_append, skipLine_holding_cons, if_neg (Ne.symm h.1), ih h.2]

theorem skipLine_holding_lineEnd (more : Bytes) :
    Reader.skipLine .ended (.holding (lineEnd :: more) false) = (.ok (), .holding more true) := by
  rw [skipLine_holding_cons, if_pos rfl]

/-- What stands before the first line end of a run, if the run has one. -/
theorem eq_append_of_dropWhile {u rest : Bytes} {b : UInt8}
    (h : u.dropWhile (· ≠ lineEnd) = b :: rest) :
    ∃ front, u = front ++ lineEnd :: rest ∧ lineEnd ∉ front := by
  induction u with
  | nil => cases h
  | cons c cs ih =>
    by_cases hc : c = lineEnd
    · simp only [hc, ne_eq, not_true_eq_false, decide_false, Bool.false_eq_true,
        not_false_eq_true, List.dropWhile_cons_of_neg, List.cons.injEq] at h
      exact ⟨[], by simp [hc, h.2], by simp⟩
    · rw [List.dropWhile_cons_of_pos (by simpa using hc)] at h
      obtain ⟨front, rfl, hf⟩ := ih h
      exact ⟨c :: front, rfl, by simp [Ne.symm hc, hf]⟩

theorem agreesAt_finish (src : Source σ) (r : Reader σ) :
    AgreesAt src (finish src) (finish .ended) r := by
  unfold finish AgreesAt
  fun_induction Reader.skipLine src r with
  | case1 r h =>
    refine ⟨rfl, .settled [] (.refl _) (List.append_nil _) ?_⟩
    intro more
    rw [h]
    exact skipLine_holding_true more
  | case2 r hl e r' h =>
    obtain ⟨hu, x, hx, ht, rfl, hu', hc, ha⟩ := Reader.ensure_error h
    refine ⟨hc, .starved (.refl _) hx ht hu' ?_⟩
    rw [ha, Bool.eq_false_iff.2 hl, hu]
    exact skipLine_holding_nil
  | case3 r hl r' h b rest hd =>
    obtain ⟨got, hb, hu, hc, -⟩ := Reader.ensure_ok h
    obtain ⟨front, hf, hn⟩ := eq_append_of_dropWhile hd
    refine ⟨hc, .settled (front ++ [lineEnd]) hb ?_ fun more => ?_⟩
    · rw [← hu, hf, List.append_assoc]
      rfl
    · rw [Bool.eq_false_iff.2 hl, List.append_assoc, skipLine_holding_line _ hn]
      exact skipLine_holding_lineEnd more
  | case4 r hl r' h hd ih =>
    obtain ⟨got, hb, hu, hc, ha⟩ := Reader.ensure_ok h
    refine ⟨ih.1.trans hc, Trace.prepend (r'.leaving [] r'.atLineEnd) hb
      (hu.symm.trans (List.append_nil _).symm) hc (fun more => ?_) ih.2⟩
    rw [ha, Bool.eq_false_iff.2 hl]
    exact skipLine_holding_line more fun hm => by
      simpa using List.dropWhile_eq_nil_iff.1 hd _ hm

/-! ## The steps of a reply -/

theorem agreesAt_expectOpcode (op : Opcode) (r : Reader σ) :
    AgreesAt src (expectOpcode src op) (expectOpcode .ended op) r :=
  (agreesAt_parsed _ r).bind fun _ _ _ => agreesAt_ofExcept _ _

/-- One item of a list and those after it. -/
theorem itemsFrom_eq (src : Source σ) (e : Encoding) (acc : List String) :
    itemsFrom src e acc = (do
      let (f, t) ← field src true
      let s ← ofExcept (Wire.item e f)
      if t = .item then itemsFrom src e (s.toList ++ acc)
      else pure (s.toList ++ acc).reverse : Reading σ (List String)) := by
  funext r
  rw [bind_run, itemsFrom]
  split <;> rename_i h <;> rw [show field src true r = _ from h]
  rename_i f t r'
  simp only
  rw [bind_run]
  cases Wire.item e f with
  | error e => rfl
  | ok s => cases t <;> rfl

theorem agreesAt_itemsFrom (e : Encoding) (acc : List String) (r : Reader σ) :
    AgreesAt src (itemsFrom src e acc) (itemsFrom .ended e acc) r := by
  induction hn : r.load src using Nat.strongRecOn generalizing acc r with
  | ind n ih =>
    rw [itemsFrom_eq src, itemsFrom_eq .ended]
    apply (agreesAt_field src true r).bind
    intro ft r₁ h₁
    apply (agreesAt_ofExcept _ r₁).bind
    intro s r₂ h₂
    split
    · have hlt := (Reader.load_fieldFrom src true [] 0 r).2 ft (congrArg Prod.fst h₁)
      have hr : r₂ = r₁ := by
        cases hi : Wire.item e ft.1 <;> rw [hi] at h₂ <;> cases h₂
        rfl
      rw [show (Reader.fieldFrom src true [] 0 r).2 = r₁ from congrArg Prod.snd h₁] at hlt
      exact ih _ (hn ▸ hr ▸ hlt) _ _ rfl
    · exact agreesAt_pure _ _

end Reading

end TagStore
