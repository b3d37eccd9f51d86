import TagStore.Proofs.Wire.Line
import TagStore.Proofs.Wire.Trace

/-!
# Steps at hand and the ends of lines

A step that goes well takes a run of the bytes at hand, and it leaves the reader at the end of a
line only if that run ends with a line end, or if it took nothing (`Advances`). So a step that
passes over the rest of its line at last (`Finishes`) has taken a run of whole lines, if it started
with one (`Wire.eq_flatten_of_endsLine`).
-/

namespace TagStore

open Wire

namespace Wire

/-- Whether a run of bytes ends with a line end. -/
def EndsLine (b : Bytes) : Prop := ∃ front, b = front ++ [lineEnd]

theorem EndsLine.append {c : Bytes} (b : Bytes) (h : EndsLine c) : EndsLine (b ++ c) := by
  obtain ⟨front, rfl⟩ := h
  exact ⟨b ++ front, (List.append_assoc ..).symm⟩

theorem EndsLine.of_append {b c : Bytes} (h : EndsLine (b ++ c)) (hc : c ≠ []) : EndsLine c := by
  obtain ⟨front, h⟩ := h
  obtain ⟨d, x, rfl⟩ : ∃ d x, c = d ++ [x] :=
    ⟨c.dropLast, c.getLast hc, (List.dropLast_concat_getLast hc).symm⟩
  rw [← List.append_assoc] at h
  obtain ⟨-, hx⟩ := List.append_inj' h rfl
  exact ⟨d, by rw [hx]⟩

theorem EndsLine.ne_nil {b : Bytes} (h : EndsLine b) : b ≠ [] := by
  obtain ⟨front, rfl⟩ := h
  simp

/-- A part of a line that ends with a line end is the line. -/
theorem IsLine.eq_nil_of_endsLine {l b c : Bytes} (hl : IsLine l) (h : l = b ++ c)
    (hb : EndsLine b) : c = [] := by
  apply Decidable.byContradiction
  intro hc
  have hp : b <+: l := h ▸ List.prefix_append b c
  have hne : b ≠ l := fun he => hc (List.append_cancel_left (by rw [← h, he, List.append_nil]))
  obtain ⟨front, rfl⟩ := hb
  exact hl.not_mem_of_start hp hne (by simp)

/-- A run of lines is cut between two of them by what ends with a line end. -/
theorem eq_flatten_of_endsLine {ls : List Bytes} {b c : Bytes} (hls : ∀ l ∈ ls, IsLine l)
    (h : ls.flatten = b ++ c) (hb : EndsLine b) :
    ∃ front back, ls = front ++ back ∧ b = front.flatten ∧ c = back.flatten := by
  induction ls generalizing b with
  | nil =>
    rw [List.flatten_nil] at h
    exact absurd (List.append_eq_nil_iff.1 h.symm).1 hb.ne_nil
  | cons l ls ih =>
    have hl := hls l List.mem_cons_self
    rw [List.flatten_cons] at h
    rcases List.append_eq_append_iff.1 h with ⟨d, rfl, hd⟩ | ⟨d, rfl, rfl⟩
    · by_cases hne : d = []
      · refine ⟨[l], ls, rfl, ?_, ?_⟩
        · simp [hne]
        · simpa [hne] using hd.symm
      · obtain ⟨front, back, rfl, rfl, rfl⟩ :=
          ih (fun l' hl' => hls l' (List.mem_cons_of_mem _ hl')) hd (hb.of_append hne)
        exact ⟨l :: front, back, rfl, rfl, rfl⟩
    · obtain rfl := hl.eq_nil_of_endsLine rfl hb
      exact ⟨[b], ls, by simp, by simp, by simp⟩

/-- The bytes before the first separator or line end. -/
def firstField (b : Bytes) : Bytes := b.takeWhile fun x => x ≠ fieldSeparator ∧ x ≠ lineEnd

theorem firstField_append {f : Bytes} {x : UInt8} (c : Bytes)
    (hf : ∀ y ∈ f, y ≠ fieldSeparator ∧ y ≠ lineEnd) (hx : x = fieldSeparator ∨ x = lineEnd) :
    firstField (f ++ x :: c) = f := by
  rw [firstField, List.takeWhile_append_of_pos fun y hy => by simpa using hf y hy,
    List.takeWhile_cons_of_neg, List.append_nil]
  rcases hx with rfl | rfl <;> decide

/-- What follows a line does not reach its first field. -/
theorem IsLine.firstField_append {l : Bytes} (h : IsLine l) (c : Bytes) :
    firstField (l ++ c) = firstField l := by
  obtain ⟨body, -, rfl⟩ := h
  induction body with
  | nil => rfl
  | cons x xs ih =>
    simp only [firstField, List.cons_append, List.takeWhile_cons]
    split
    · exact congrArg _ ih
    · rfl

end Wire

namespace Reader

theorem terminator?_eq_some {split : Bool} {b : UInt8} {t : Terminator}
    (h : terminator? split b = some t) :
    (t = .line ↔ b = lineEnd) ∧ (split = false → b = fieldSeparator ∨ b = lineEnd) := by
  unfold terminator? at h
  split at h
  · rename_i hb
    cases h
    exact ⟨⟨fun h => (nomatch h), fun h => absurd (hb.symm.trans h) (by decide)⟩, fun _ => .inl hb⟩
  · split at h
    · rename_i hb
      cases h
      exact ⟨⟨fun _ => hb, fun _ => rfl⟩, fun _ => .inr hb⟩
    · rename_i hb
      split at h
      · rename_i hs
        cases h
        simp only [Bool.and_eq_true] at hs
        exact ⟨⟨fun h => (nomatch h), fun h => absurd h hb⟩,
          fun h => absurd (hs.1.symm.trans h) (by decide)⟩
      · cases h

end Reader

theorem Source.Brings.eq_nil_of_ended {n : Nat} {s s' : Unit} {b : Bytes}
    (h : Source.ended.Brings n s b s') : b = [] := by
  induction h with
  | refl => rfl
  | read _ hr ih =>
    cases hr
    rw [ih]
    rfl

/-! ## Steps at hand -/

/-- From `r` to `r'` a run of bytes is taken, and `r'` is at the end of a line only if the run ends
there, or if there is none and `r` is at the end of a line. -/
def Reader.Passes (r r' : Reader Unit) : Prop :=
  ∃ used, r.buffer.unread = used ++ r'.buffer.unread ∧
    (r'.atLineEnd = true → used = [] ∧ r.atLineEnd = true ∨ EndsLine used)

theorem Reader.Passes.refl (r : Reader Unit) : r.Passes r := ⟨[], rfl, fun h => .inl ⟨rfl, h⟩⟩

theorem Reader.Passes.trans {r r₁ r' : Reader Unit} (h : r.Passes r₁) (h' : r₁.Passes r') :
    r.Passes r' := by
  obtain ⟨used, hu, hl⟩ := h
  obtain ⟨used', hu', hl'⟩ := h'
  refine ⟨used ++ used', by rw [hu, hu', List.append_assoc], ?_⟩
  intro h
  rcases hl' h with ⟨rfl, h⟩ | h
  · rw [List.append_nil]
    exact hl h
  · exact .inr (h.append used)

/-- A step on bytes at hand, whatever its errors. -/
abbrev AtHand (ε α : Type) := ExceptT ε (StateM (Reader Unit)) α

namespace AtHand

variable {ε α β : Type}

theorem bind_eq_ok {m : AtHand ε α} {f : α → AtHand ε β} {r r' : Reader Unit} {b : β}
    (h : (m >>= f) r = (.ok b, r')) : ∃ a r₁, m r = (.ok a, r₁) ∧ f a r₁ = (.ok b, r') := by
  rw [Reader.bind_run] at h
  rcases hx : m r with ⟨e | a, r₁⟩
  · rw [hx] at h
    cases h
  · rw [hx] at h
    exact ⟨a, r₁, rfl, h⟩

/-- A step that goes well takes a run of bytes from the head, and stops at the end of a line only if
the run ends there. -/
def Advances (m : AtHand ε α) : Prop := ∀ r a r', m r = (.ok a, r') → r.Passes r'

/-- A step that goes well stops at the end of a line. -/
def Finishes (m : AtHand ε α) : Prop := ∀ r a r', m r = (.ok a, r') → r'.atLineEnd = true

theorem advances_pure (a : α) : Advances (pure a : AtHand ε α) := by
  rintro r b r' ⟨⟩
  exact .refl r

theorem Advances.bind {m : AtHand ε α} {f : α → AtHand ε β} (hm : Advances m)
    (hf : ∀ a, Advances (f a)) : Advances (m >>= f) := by
  intro r b r' h
  obtain ⟨a, r₁, h₁, h₂⟩ := bind_eq_ok h
  exact (hm r a r₁ h₁).trans (hf a r₁ b r' h₂)

theorem Finishes.bind {m : AtHand ε α} {f : α → AtHand ε β} (hf : ∀ a, Finishes (f a)) :
    Finishes (m >>= f) := by
  intro r b r' h
  obtain ⟨a, r₁, -, h⟩ := bind_eq_ok h
  exact hf a r₁ b r' h

theorem Finishes.pure {m : AtHand ε α} (hm : Finishes m) (b : β) :
    Finishes (m >>= fun _ => Pure.pure b) := by
  intro r b' r' h
  obtain ⟨a, r₁, h₁, h₂⟩ := bind_eq_ok h
  cases h₂
  exact hm r a r' h₁

end AtHand

namespace Reading

open AtHand

variable {α : Type}

theorem ofExcept_eq_ok {x : Except ProtocolError α} {r r' : Reader Unit} {a : α}
    (h : (ofExcept x : Reading Unit α) r = (.ok a, r')) : x = .ok a ∧ r' = r := by
  cases x with
  | ok b =>
    cases h
    exact ⟨rfl, rfl⟩
  | error e => cases h

theorem advances_ofExcept (x : Except ProtocolError α) :
    Advances (ofExcept x : Reading Unit α) := by
  cases x with
  | ok a => exact advances_pure a
  | error e => rintro r a r' ⟨⟩

theorem advances_field (split : Bool) : Advances (field .ended split) := by
  intro r ft r' h
  obtain ⟨-, hf⟩ := Reader.fieldRead_fieldFrom .ended split [] 0 r (Nat.zero_le _)
  rw [show Reader.fieldFrom .ended split [] 0 r = _ from h] at hf
  cases hf with
  | @ends got f t hb ht hl =>
    rw [hb.eq_nil_of_ended, List.append_nil] at ht
    obtain ⟨body, x, hu, -, hx, -⟩ := Reader.takeField_eq_some ht
    refine ⟨body ++ [x], by rw [hu, List.append_assoc]; rfl, fun h => .inr ?_⟩
    rw [hl, decide_eq_true_eq] at h
    exact ⟨body, by rw [(Reader.terminator?_eq_some hx).1.1 h]⟩

/-- A field that is read well stands before the rest. -/
theorem parsed_eq_ok {parse : Bytes → Except ProtocolError α} {r r' : Reader Unit} {a : α}
    (h : parsed .ended parse r = (.ok a, r')) :
    parse (firstField r.buffer.unread) = .ok a ∧
      ∃ x, r.buffer.unread = firstField r.buffer.unread ++ x :: r'.buffer.unread := by
  obtain ⟨⟨f, t⟩, r₁, h₁, h₂⟩ := bind_eq_ok h
  obtain ⟨hp, rfl⟩ := ofExcept_eq_ok h₂
  obtain ⟨-, hf⟩ := Reader.fieldRead_fieldFrom .ended false [] 0 r (Nat.zero_le _)
  rw [show Reader.fieldFrom .ended false [] 0 r = _ from h₁] at hf
  have key : f = firstField r.buffer.unread ∧
      ∃ x, r.buffer.unread = f ++ x :: r'.buffer.unread := by
    generalize hy : (Except.ok (f, t) : Except ProtocolError (Bytes × Terminator)) = y at hf
    cases hf with
    | ends hb ht hl =>
      rw [hb.eq_nil_of_ended, List.append_nil] at ht
      obtain ⟨body, x, hu, rfl, hx, hbody⟩ := Reader.takeField_eq_some ht
      obtain ⟨rfl, -⟩ := Prod.mk.inj (Except.ok.inj hy)
      rw [List.append_nil, List.reverse_reverse]
      refine ⟨?_, x, hu⟩
      rw [hu, firstField_append _ (fun y hy => Reader.terminator?_eq_none (hbody y hy))
        ((Reader.terminator?_eq_some hx).2 rfl)]
    | starved => cases hy
    | overlong => cases hy
  obtain ⟨rfl, x, hx⟩ := key
  exact ⟨hp, x, hx⟩

theorem advances_parsed (parse : Bytes → Except ProtocolError α) :
    Advances (parsed .ended parse) :=
  (advances_field false).bind fun _ => advances_ofExcept _

theorem advances_expectOpcode (op : Opcode) : Advances (expectOpcode .ended op) :=
  (advances_parsed _).bind fun _ => advances_ofExcept _

theorem advances_itemsFrom (e : Encoding) (acc : List String) :
    Advances (itemsFrom .ended e acc) := by
  intro r
  induction hn : r.load .ended using Nat.strongRecOn generalizing acc r with
  | ind n ih =>
    intro a r' h
    rw [itemsFrom_eq] at h
    obtain ⟨⟨f, t⟩, r₁, h₁, h⟩ := bind_eq_ok h
    simp only at h
    obtain ⟨s, r₂, h₂, hk⟩ := bind_eq_ok h
    obtain ⟨-, rfl⟩ := ofExcept_eq_ok h₂
    have hp := advances_field true r (f, t) r₂ h₁
    by_cases ht : t = .item
    · rw [if_pos ht] at hk
      have hlt := (Reader.load_fieldFrom .ended true [] 0 r).2 (f, t) (congrArg Prod.fst h₁)
      rw [show (Reader.fieldFrom .ended true [] 0 r).2 = r₂ from congrArg Prod.snd h₁] at hlt
      exact hp.trans (ih _ (hn ▸ hlt) _ r₂ rfl a r' hk)
    · rw [if_neg ht] at hk
      cases hk
      exact hp

theorem advances_finish : Advances (finish .ended) := by
  unfold finish Advances
  intro r
  fun_induction Reader.skipLine .ended r with
  | case1 r h =>
    rintro a r' ⟨⟩
    exact .refl r
  | case2 => rintro a r' ⟨⟩
  | case3 r hl r₁ h b rest hd =>
    rintro a r' ⟨⟩
    obtain ⟨got, hb, hu, -⟩ := Reader.ensure_ok h
    obtain ⟨front, hf, -⟩ := eq_append_of_dropWhile hd
    rw [hb.eq_nil_of_ended, List.append_nil] at hu
    exact ⟨front ++ [lineEnd], by rw [← hu, hf]; simp [Reader.leaving], fun _ => .inr ⟨front, rfl⟩⟩
  | case4 r hl r₁ h hd ih =>
    intro a r' h'
    obtain ⟨got, hb, hu, -, ha⟩ := Reader.ensure_ok h
    rw [hb.eq_nil_of_ended, List.append_nil] at hu
    have hp : r.Passes (r₁.leaving [] r₁.atLineEnd) :=
      ⟨r₁.buffer.unread, by rw [hu]; exact (List.append_nil _).symm,
        fun h => absurd (ha.symm.trans h) hl⟩
    exact hp.trans (ih a r' h')

theorem finishes_finish : Finishes (finish .ended) := by
  unfold finish Finishes
  intro r
  fun_induction Reader.skipLine .ended r with
  | case1 r h =>
    rintro a r' ⟨⟩
    exact h
  | case2 => rintro a r' ⟨⟩
  | case3 r hl r₁ h b rest hd =>
    rintro a r' ⟨⟩
    rfl
  | case4 r hl r₁ h hd ih => exact ih

end Reading

end TagStore
