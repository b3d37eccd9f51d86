import TagStore.Wire.Reading

/-!
# Reading a stream and reading bytes at hand

What a step of reading makes of a stream does not depend on how the stream is refilled. The
yardstick is the same step on a reader that holds all its bytes and whose stream has ended
(`Reader.holding`). Three things can happen on a stream (`Reading.Trace`): the step ends within the
bytes that were brought, and then it ends alike at hand, whatever follows; or a read brings nothing
more, and then the bytes at hand end within the step too; or a field passes its greatest length.

`Reading.AgreesAt.bind` puts steps together, so each step of a reply is followed from that of its
fields (`agreesAt_field`) and of the end of its lines (`agreesAt_finish`).
-/

namespace TagStore

open Wire

/-- The bytes that a read brought. -/
def Received.taken : Received → Bytes
  | bytes b => b
  | failed _ | nothing => []

namespace Source

variable {σ : Type}

/-- A stream that has ended. -/
def ended : Source Unit where
  read _ s := (.bytes [], s)
  limit := none
  budget _ := 0
  read_budget _ _ := Nat.le_refl 0
  bytes_budget _ _ b h := by cases h; exact Nat.le_refl 0

/-- The error of a read that brought nothing. -/
def fault (src : Source σ) : Received → ProtocolError
  | .bytes _ => Reader.endOfStream
  | .failed e => .io e
  | .nothing => .ofSilence src.limit

/-- `Brings src n s b s'`: reads of at most `n` bytes lead from `s` to `s'` and bring `b`. -/
inductive Brings (src : Source σ) (n : Nat) : σ → Bytes → σ → Prop
  | refl (s : σ) : Brings src n s [] s
  | read {s s' s'' : σ} {b : Bytes} {x : Received} :
    Brings src n s b s' → src.read n s' = (x, s'') → Brings src n s (b ++ x.taken) s''

namespace Brings

variable {src : Source σ} {n : Nat} {s s' s'' : σ} {b c : Bytes}

theorem one {x : Received} (h : src.read n s = (x, s')) : Brings src n s x.taken s' := by
  simpa using (refl s).read h

theorem trans (h : Brings src n s b s') (h' : Brings src n s' c s'') :
    Brings src n s (b ++ c) s'' := by
  induction h' with
  | refl => simpa using h
  | read _ hr ih =>
    rw [← List.append_assoc]
    exact ih.read hr

end Brings

end Source

namespace Reader

variable {σ : Type}

/-- A reader that holds all its bytes. -/
def holding (b : Bytes) (atLineEnd : Bool) : Reader Unit := ⟨(), ⟨1, b⟩, atLineEnd⟩

@[simp] theorem unread_holding (b : Bytes) (l : Bool) : (holding b l).buffer.unread = b := rfl

@[simp] theorem atLineEnd_holding (b : Bytes) (l : Bool) : (holding b l).atLineEnd = l := rfl

@[simp] theorem leaving_holding (b c : Bytes) (l l' : Bool) :
    (holding b l).leaving c l' = holding c l' := rfl

/-- Steps one after the other, whatever their errors are. -/
theorem bind_run {ε α β : Type} (m : ExceptT ε (StateM (Reader σ)) α)
    (f : α → ExceptT ε (StateM (Reader σ)) β) (r : Reader σ) :
    (m >>= f) r =
      match m r with
      | (.ok a, r') => f a r'
      | (.error e, r') => (.error e, r') := by
  change (match m r with | (x, r') => ExceptT.bindCont f x r') = _
  cases h : m r with
  | mk x r' => cases x <;> rfl

/-! ## Refilling the buffer -/

theorem fill_eq (src : Source σ) (r : Reader σ) {x : Received} {s : σ}
    (h : src.read r.buffer.capacity r.stream = (x, s)) :
    fill src r = (if x.taken = [] then .error (src.fault x) else .ok (),
      ⟨s, ⟨r.buffer.capacity, x.taken⟩, r.atLineEnd⟩) := by
  unfold fill
  rw [h]
  rcases x with (_ | ⟨c, cs⟩) | e | _ <;> rfl

/-- What a reader has after a refill that went well. -/
theorem ensure_ok {src : Source σ} {r r' : Reader σ} (h : ensure src r = (.ok (), r')) :
    ∃ got, src.Brings r.buffer.capacity r.stream got r'.stream ∧
      r'.buffer.unread = r.buffer.unread ++ got ∧
      r'.buffer.capacity = r.buffer.capacity ∧ r'.atLineEnd = r.atLineEnd := by
  unfold ensure at h
  split at h
  · rename_i hu
    rcases hx : src.read r.buffer.capacity r.stream with ⟨x, s⟩
    rw [fill_eq src r hx] at h
    obtain ⟨-, rfl⟩ := Prod.mk.inj h
    exact ⟨x.taken, .one hx, by simp [hu], rfl, rfl⟩
  · cases h
    exact ⟨[], .refl _, by simp, rfl, rfl⟩

/-- What a reader has after a refill that failed. -/
theorem ensure_error {src : Source σ} {r r' : Reader σ} {e : ProtocolError}
    (h : ensure src r = (.error e, r')) :
    r.buffer.unread = [] ∧ ∃ x, src.read r.buffer.capacity r.stream = (x, r'.stream) ∧
      x.taken = [] ∧ e = src.fault x ∧ r'.buffer.unread = [] ∧
      r'.buffer.capacity = r.buffer.capacity ∧ r'.atLineEnd = r.atLineEnd := by
  unfold ensure at h
  split at h
  · rename_i hu
    rcases hx : src.read r.buffer.capacity r.stream with ⟨x, s⟩
    rw [fill_eq src r hx] at h
    split at h
    · rename_i ht
      cases h
      exact ⟨hu, x, rfl, ht, rfl, ht, rfl, rfl⟩
    · cases h
  · cases h

@[simp] theorem ensure_holding_cons (b : UInt8) (bs : Bytes) (l : Bool) :
    ensure .ended (holding (b :: bs) l) = (.ok (), holding (b :: bs) l) := rfl

/-! ## Fields -/

theorem terminator?_eq_none {split : Bool} {b : UInt8} (h : terminator? split b = none) :
    b ≠ fieldSeparator ∧ b ≠ lineEnd := by
  unfold terminator? at h
  split at h
  · cases h
  · split at h
    · cases h
    · exact ⟨‹_›, ‹_›⟩

/-- A field is taken up to its terminator. -/
theorem takeField_append_cons {split : Bool} {body : Bytes} {x : UInt8} {t : Terminator}
    (acc rest : Bytes) (hbody : ∀ y ∈ body, terminator? split y = none)
    (hx : terminator? split x = some t) :
    takeField split acc (body ++ x :: rest) = (body.reverse ++ acc, some (t, rest)) := by
  induction body generalizing acc with
  | nil => rw [List.nil_append, takeField, hx]; rfl
  | cons y body ih =>
    rw [List.cons_append, takeField, hbody y List.mem_cons_self]
    simp only
    rw [ih (y :: acc) fun z hz => hbody z (List.mem_cons_of_mem _ hz), List.reverse_cons,
      List.append_assoc, List.singleton_append]

/-- A field that ends stands before its terminator. -/
theorem takeField_eq_some {split : Bool} {acc b f rest : Bytes} {t : Terminator}
    (h : takeField split acc b = (f, some (t, rest))) :
    ∃ body x, b = body ++ x :: rest ∧ f = body.reverse ++ acc ∧ terminator? split x = some t ∧
      ∀ y ∈ body, terminator? split y = none := by
  induction b generalizing acc with
  | nil => cases h
  | cons y ys ih =>
    rw [takeField] at h
    split at h
    · rename_i t' ht
      cases h
      exact ⟨[], y, rfl, rfl, ht, by simp⟩
    · rename_i ht
      obtain ⟨body, x, rfl, rfl, hx, hb⟩ := ih h
      refine ⟨y :: body, x, rfl, by simp, hx, ?_⟩
      intro z hz
      rcases List.mem_cons.1 hz with rfl | hz
      · exact ht
      · exact hb z hz

/-- A field that ends does not look at what follows its end. -/
theorem takeField_ends {split : Bool} {acc b f rest : Bytes} {t : Terminator}
    (h : takeField split acc b = (f, some (t, rest))) :
    ∃ used, b = used ++ rest ∧
      ∀ more, takeField split acc (used ++ more) = (f, some (t, more)) := by
  obtain ⟨body, x, rfl, rfl, hx, hbody⟩ := takeField_eq_some h
  refine ⟨body ++ [x], by rw [List.append_assoc]; rfl, ?_⟩
  intro more
  rw [List.append_assoc]
  exact takeField_append_cons acc more hbody hx

/-- A field that does not end goes on in the bytes that come next. -/
theorem takeField_append {split : Bool} {acc b f : Bytes} (c : Bytes)
    (h : takeField split acc b = (f, none)) :
    takeField split acc (b ++ c) = takeField split f c := by
  induction b generalizing acc with
  | nil =>
    cases h
    rfl
  | cons x xs ih =>
    rw [takeField] at h
    split at h
    · cases h
    · rename_i ht
      rw [List.cons_append, takeField, ht]
      exact ih h

theorem forall_of_takeField {split : Bool} {acc b f : Bytes}
    (h : takeField split acc b = (f, none)) : fieldSeparator ∉ b ∧ lineEnd ∉ b := by
  induction b generalizing acc with
  | nil => simp
  | cons x xs ih =>
    rw [takeField] at h
    split at h
    · cases h
    · rename_i ht
      obtain ⟨h1, h2⟩ := terminator?_eq_none ht
      obtain ⟨h3, h4⟩ := ih h
      simp [h1.symm, h2.symm, h3, h4]

theorem fieldFrom_holding_ends {split : Bool} {acc b f rest : Bytes} {t : Terminator} (size : Nat)
    (l : Bool) (h : takeField split acc b = (f, some (t, rest))) :
    fieldFrom .ended split acc size (holding b l) =
      (.ok (f.reverse, t), holding rest (t = .line)) := by
  cases b with
  | nil => cases h
  | cons x xs =>
    unfold fieldFrom
    split
    · rename_i he
      cases he
    · rename_i r' he
      cases he
      simp only [unread_holding, h, leaving_holding]

theorem fieldFrom_holding_nil (split : Bool) (acc : Bytes) (size : Nat) (l : Bool) :
    fieldFrom .ended split acc size (holding [] l) = (.error endOfStream, holding [] l) := by
  unfold fieldFrom
  split
  · rename_i he
    cases he
    rfl
  · rename_i he
    cases he

theorem fieldFrom_holding_open {split : Bool} {acc b f : Bytes} {size : Nat} (l : Bool)
    (h : takeField split acc b = (f, none)) (hs : size + b.length ≤ maxFieldSize) :
    fieldFrom .ended split acc size (holding b l) = (.error endOfStream, holding [] l) := by
  cases b with
  | nil => exact fieldFrom_holding_nil split acc size l
  | cons x xs =>
    unfold fieldFrom
    split
    · rename_i he
      cases he
    · rename_i r' he
      cases he
      simp only [unread_holding, h, leaving_holding, atLineEnd_holding]
      exact (if_neg (Nat.not_lt.2 hs)).trans (fieldFrom_holding_nil split f _ l)

/-- What reading to the end of a field comes to. -/
inductive FieldRead (src : Source σ) (split : Bool) (acc : Bytes) (size : Nat) (r r' : Reader σ) :
    Except ProtocolError (Bytes × Terminator) → Prop
  | ends {got f : Bytes} {t : Terminator} :
    src.Brings r.buffer.capacity r.stream got r'.stream →
    takeField split acc (r.buffer.unread ++ got) = (f, some (t, r'.buffer.unread)) →
    r'.atLineEnd = decide (t = .line) → FieldRead src split acc size r r' (.ok (f.reverse, t))
  | starved {got f : Bytes} {s : σ} {x : Received} :
    src.Brings r.buffer.capacity r.stream got s →
    src.read r.buffer.capacity s = (x, r'.stream) → x.taken = [] →
    takeField split acc (r.buffer.unread ++ got) = (f, none) →
    size + (r.buffer.unread ++ got).length ≤ maxFieldSize →
    r'.buffer.unread = [] → r'.atLineEnd = r.atLineEnd →
    FieldRead src split acc size r r' (.error (src.fault x))
  | overlong {got f : Bytes} :
    src.Brings r.buffer.capacity r.stream got r'.stream →
    takeField split acc (r.buffer.unread ++ got) = (f, none) →
    maxFieldSize < size + (r.buffer.unread ++ got).length →
    FieldRead src split acc size r r' (.error tooLong)

/-- **Reading to the end of a field takes the bytes up to the first separator**, however they
come. -/
theorem fieldRead_fieldFrom (src : Source σ) (split : Bool) (acc : Bytes) (size : Nat)
    (r : Reader σ) (hs : size ≤ maxFieldSize) :
    (fieldFrom src split acc size r).2.buffer.capacity = r.buffer.capacity ∧
      FieldRead src split acc size r (fieldFrom src split acc size r).2
        (fieldFrom src split acc size r).1 := by
  fun_induction fieldFrom src split acc size r with
  | case1 acc size r e r' h =>
    obtain ⟨hu, x, hx, ht, rfl, hu', hc, hl⟩ := ensure_error h
    refine ⟨hc, .starved (.refl _) hx ht (f := acc) ?_ ?_ hu' hl⟩
    · rw [hu]
      rfl
    · simpa [hu] using hs
  | case2 acc size r r' h acc' t rest ht =>
    obtain ⟨got, hb, hu, hc, -⟩ := ensure_ok h
    exact ⟨hc, .ends hb (hu ▸ ht) rfl⟩
  | case3 acc size r r' h acc' ht size' r'' hl =>
    obtain ⟨got, hb, hu, hc, -⟩ := ensure_ok h
    exact ⟨hc, .overlong hb (hu ▸ ht) (hu ▸ hl)⟩
  | case4 acc size r r' h acc' ht size' r'' hl ih =>
    obtain ⟨got, hb, hu, hc, ha⟩ := ensure_ok h
    obtain ⟨hc', hf⟩ := ih (Nat.not_lt.1 hl)
    rw [hu] at ht
    have hsize : size' = size + (r.buffer.unread ++ got).length := by rw [← hu]
    refine ⟨hc'.trans hc, ?_⟩
    -- the buffer is empty here, so the rest of the field is what further reads bring
    have glue : ∀ got', takeField split acc (r.buffer.unread ++ (got ++ got')) =
        takeField split acc' (r''.buffer.unread ++ got') := fun got' => by
      rw [← List.append_assoc, takeField_append got' ht]
      rfl
    have hlen : ∀ got', size + (r.buffer.unread ++ (got ++ got')).length =
        size' + (r''.buffer.unread ++ got').length := fun got' => by
      simp only [hsize, List.length_append, r'', leaving, List.length_nil]
      omega
    generalize (fieldFrom src split acc' size' r'').1 = y at hf ⊢
    cases hf with
    | ends hb' ht' hl' => exact .ends (hb.trans (hc ▸ hb')) (by rw [glue]; exact ht') hl'
    | starved hb' hx hxt ht' hl' hu' ha' =>
      exact .starved (hb.trans (hc ▸ hb')) (hc ▸ hx) hxt (by rw [glue]; exact ht')
        (by rw [hlen]; exact hl') hu' (ha'.trans ha)
    | overlong hb' ht' hl' =>
      exact .overlong (hb.trans (hc ▸ hb')) (by rw [glue]; exact ht') (by rw [hlen]; exact hl')

end Reader

end TagStore
