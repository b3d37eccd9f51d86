import TagStore.Proofs.Wire.Trace

/-!
# Reading what is due

A source may bring its bytes in any pieces, as long as it brings some whenever some are due
(`Source.Supplies`). A reader of such a source has bytes before it, of which its buffer holds the
first (`Reader.Before`). A step of reading is then told by what it makes of the bytes at the head of
them and by those that it leaves (`Reader.Gives`), and the steps of a reply are put together from
those of its fields, as the reply is put together from them.
-/

namespace TagStore

open Wire

/-- A source brings what is due and nothing else, and at least some of it. `Due b s` says that in
the state `s` just the bytes `b` are still to come. -/
structure Source.Supplies {σ : Type} (src : Source σ) (Due : Bytes → σ → Prop) : Prop where
  read : ∀ {b s} (n : Nat), Due b s →
    ∃ b', b = (src.read n s).1.taken ++ b' ∧ Due b' (src.read n s).2
  progress : ∀ {b s} {n : Nat}, 0 < n → Due b s → (src.read n s).1.taken = [] → b = []

namespace Wire

variable {x y : UInt8} {t : Terminator}

/-- No byte of an item ends it. -/
theorem terminator?_eq_none (h : isDelimiter y = false) : terminator? true y = none := by
  simp only [isDelimiter, Bool.or_eq_false_iff, beq_eq_false_iff_ne] at h
  simp [terminator?, h]

/-- What ends a field ends its last item too. -/
theorem terminator?_of_field (h : terminator? false x = some t) :
    terminator? true x = some t ∧ t ≠ .item := by
  obtain rfl | hsep := eq_or_ne x fieldSeparator
  · obtain rfl : .field = t := Option.some.inj h
    exact ⟨rfl, nofun⟩
  obtain rfl | hend := eq_or_ne x lineEnd
  · obtain rfl : .line = t := Option.some.inj h
    exact ⟨rfl, nofun⟩
  · simp [terminator?, hsep, hend] at h

end Wire

namespace Reader

variable {σ : Type} {src : Source σ} {Due : Bytes → σ → Prop} {b : Bytes} {l : Bool}
  {r : Reader σ}

/-- Whether a reader has just `b` before it, and whether it has taken its last line to the end. -/
structure Before (Due : Bytes → σ → Prop) (b : Bytes) (l : Bool) (r : Reader σ) : Prop where
  room : 0 < r.buffer.capacity
  atLineEnd : r.atLineEnd = l
  due : ∃ b', b = r.buffer.unread ++ b' ∧ Due b' r.stream

/-- A reader that has bytes before it can fill its buffer. -/
theorem Before.ensure (hs : src.Supplies Due) (h : Before Due b l r) (hb : b ≠ []) :
    ∃ r', ensure src r = (.ok (), r') ∧ Before Due b l r' ∧ r'.buffer.unread ≠ [] := by
  obtain ⟨hroom, hl, b', hb', hdue⟩ := h
  cases hu : r.buffer.unread with
  | cons x xs =>
    exact ⟨r, by simp [Reader.ensure, hu], ⟨hroom, hl, b', hb', hdue⟩, by simp [hu]⟩
  | nil =>
    rw [hu, List.nil_append] at hb'
    subst hb'
    rcases hx : src.read r.buffer.capacity r.stream with ⟨x, s⟩
    obtain ⟨b', hb', hdue'⟩ := hs.read r.buffer.capacity hdue
    have hne := fun h => hb (hs.progress hroom hdue h)
    rw [hx] at hb' hdue' hne
    refine ⟨⟨s, ⟨r.buffer.capacity, x.taken⟩, r.atLineEnd⟩, ?_, ⟨hroom, hl, b', hb', hdue'⟩, hne⟩
    simp only [Reader.ensure, hu]
    rw [fill_eq src r hx, if_neg hne]

/-- What is left to a reader that has taken `used`. -/
theorem Before.leaving {used rest left : Bytes} (h : Before Due (used ++ rest) l r)
    (hu : r.buffer.unread = used ++ left) (l' : Bool) :
    Before Due rest l' (r.leaving left l') := by
  obtain ⟨hroom, -, b', hb', hdue⟩ := h
  rw [hu, List.append_assoc] at hb'
  exact ⟨hroom, rfl, b', List.append_cancel_left hb', hdue⟩

/-! ## Fields and line ends -/

/-- What is taken of bytes that do not end a field. -/
theorem takeField_eq_none {split : Bool} {acc f : Bytes} (h : takeField split acc b = (f, none)) :
    f = b.reverse ++ acc ∧ ∀ y ∈ b, terminator? split y = none := by
  induction b generalizing acc with
  | nil =>
    cases h
    exact ⟨rfl, by simp⟩
  | cons x xs ih =>
    rw [takeField] at h
    split at h
    · cases h
    · rename_i hx
      obtain ⟨rfl, hxs⟩ := ih h
      exact ⟨by simp, List.forall_mem_cons.2 ⟨hx, hxs⟩⟩

/-- A run that does not reach the first byte of a kind stands before it. -/
theorem eq_append_of_forall {P : UInt8 → Prop} {u c f rest : Bytes} {x : UInt8}
    (hu : ∀ y ∈ u, P y) (hx : ¬P x) (h : f ++ x :: rest = u ++ c) :
    ∃ f', f = u ++ f' ∧ c = f' ++ x :: rest := by
  rcases List.append_eq_append_iff.1 h with ⟨v, rfl, hv⟩ | ⟨f', rfl, hc⟩
  · cases v with
    | nil => exact ⟨[], by simp, by simpa using hv.symm⟩
    | cons y v =>
      rw [List.cons_append, List.cons.injEq] at hv
      exact absurd (hu y (by simp)) (hv.1 ▸ hx)
  · exact ⟨f', rfl, hc⟩

/-- A field at the head of what is due is read, and what follows its end is left, unless it is found
too long; and that is said of no field that has the size of one. -/
theorem fieldFrom_before_or (hs : src.Supplies Due) {split : Bool} {acc f rest : Bytes} {x : UInt8}
    {t : Terminator} {size : Nat} (hr : Before Due (f ++ x :: rest) l r)
    (hf : ∀ y ∈ f, terminator? split y = none) (hx : terminator? split x = some t) :
    (∃ r', fieldFrom src split acc size r = (.ok (acc.reverse ++ f, t), r') ∧
      Before Due rest (t = .line) r') ∨
    (fieldFrom src split acc size r).1 = .error tooLong ∧ maxFieldSize < size + f.length := by
  fun_induction fieldFrom src split acc size r generalizing f l with
  | case1 acc size r e r' h =>
    obtain ⟨r₁, hr₁, -⟩ := hr.ensure hs (by simp)
    cases hr₁.symm.trans h
  | case2 acc size r r' h acc' t' left ht =>
    obtain ⟨r₁, hr₁, hb, -⟩ := hr.ensure hs (by simp)
    obtain rfl : r₁ = r' := congrArg Prod.snd (hr₁.symm.trans h)
    obtain ⟨body, y, hu, rfl, hy, hbody⟩ := takeField_eq_some ht
    obtain ⟨b', hb', -⟩ := hb.due
    -- a field has one end
    have h₁ := takeField_append_cons [] rest hf hx
    have h₂ := takeField_append_cons [] (left ++ b') hbody hy
    rw [hb', hu, List.append_assoc, List.cons_append, h₂] at h₁
    simp only [List.append_nil, Prod.mk.injEq, Option.some.injEq, List.reverse_inj] at h₁
    obtain ⟨rfl, rfl, rfl⟩ := h₁
    refine .inl ⟨_, by simp; rfl, ?_⟩
    rw [hb', hu, List.append_assoc, List.cons_append, List.append_cons] at hb
    exact hb.leaving (by rw [hu, List.append_assoc, List.singleton_append]) _
  | case3 acc size r r' h acc' ht size' =>
    rename_i hlong
    obtain ⟨r₁, hr₁, hb, -⟩ := hr.ensure hs (by simp)
    obtain rfl : r₁ = r' := congrArg Prod.snd (hr₁.symm.trans h)
    obtain ⟨b', hb', -⟩ := hb.due
    obtain ⟨f', rfl, -⟩ := eq_append_of_forall (takeField_eq_none ht).2 (by simp [hx]) hb'
    have hlong : maxFieldSize < size + r₁.buffer.unread.length := hlong
    refine .inr ⟨rfl, ?_⟩
    rw [List.length_append]
    omega
  | case4 acc size r r' h acc' ht size' r'' =>
    rename_i ih
    obtain ⟨r₁, hr₁, hb, -⟩ := hr.ensure hs (by simp)
    obtain rfl : r₁ = r' := congrArg Prod.snd (hr₁.symm.trans h)
    obtain ⟨rfl, hu⟩ := takeField_eq_none ht
    obtain ⟨b', hb', -⟩ := hb.due
    obtain ⟨f', rfl, -⟩ := eq_append_of_forall hu (by simp [hx]) hb'
    rw [List.append_assoc] at hb
    obtain ⟨r₂, hrun, hend⟩ | ⟨herr, hlong⟩ := ih (hb.leaving (List.append_nil _).symm _)
      (fun y hy => hf y (List.mem_append_right _ hy))
    · exact .inl ⟨r₂, by simpa using hrun, hend⟩
    · exact .inr ⟨herr, by rwa [List.length_append, ← Nat.add_assoc]⟩

/-- **A field at the head of what is due is read**, and what follows its end is left. -/
theorem fieldFrom_before (hs : src.Supplies Due) {split : Bool} {acc f rest : Bytes} {x : UInt8}
    {t : Terminator} {size : Nat} (hr : Before Due (f ++ x :: rest) l r)
    (hf : ∀ y ∈ f, terminator? split y = none) (hx : terminator? split x = some t)
    (hsize : size + f.length ≤ maxFieldSize) :
    ∃ r', fieldFrom src split acc size r = (.ok (acc.reverse ++ f, t), r') ∧
      Before Due rest (t = .line) r' :=
  (fieldFrom_before_or hs hr hf hx).resolve_right fun h => absurd h.2 (Nat.not_lt.2 hsize)

/-- **The rest of a line at the head of what is due is passed over.** -/
theorem skipLine_before (hs : src.Supplies Due) {body rest : Bytes}
    (hr : Before Due (body ++ lineEnd :: rest) false r) (hbody : lineEnd ∉ body) :
    ∃ r', skipLine src r = (.ok (), r') ∧ Before Due rest true r' := by
  fun_induction skipLine src r generalizing body with
  | case1 r h => cases h.symm.trans hr.atLineEnd
  | case2 r _ e r' h =>
    obtain ⟨r₁, hr₁, -⟩ := hr.ensure hs (by simp)
    cases hr₁.symm.trans h
  | case3 r _ r' h x left hd =>
    obtain ⟨r₁, hr₁, hb, -⟩ := hr.ensure hs (by simp)
    obtain rfl : r₁ = r' := congrArg Prod.snd (hr₁.symm.trans h)
    obtain ⟨b', hb', -⟩ := hb.due
    obtain ⟨front, hf, hfront⟩ := Reading.eq_append_of_dropWhile hd
    rw [hf, List.append_assoc] at hb'
    obtain ⟨f', rfl, hrest⟩ := eq_append_of_forall (fun y hy => ne_of_mem_of_not_mem hy hfront)
      (by simp) hb'
    obtain rfl : f' = [] := by
      cases f' with
      | nil => rfl
      | cons y f' =>
        rw [List.cons_append, List.cons_append, List.cons.injEq] at hrest
        exact absurd (by simp [← hrest.1]) hbody
    rw [List.append_nil, List.append_cons] at hb
    exact ⟨_, rfl, hb.leaving (by rw [hf, List.append_cons]) _⟩
  | case4 r _ r' h hd ih =>
    obtain ⟨r₁, hr₁, hb, -⟩ := hr.ensure hs (by simp)
    obtain rfl : r₁ = r' := congrArg Prod.snd (hr₁.symm.trans h)
    obtain ⟨b', hb', -⟩ := hb.due
    obtain ⟨f', rfl, -⟩ := eq_append_of_forall (P := (· ≠ lineEnd))
      (fun y hy => by simpa using List.dropWhile_eq_nil_iff.1 hd y hy) (by simp) hb'
    rw [List.append_assoc] at hb
    have hb₁ := hb.leaving (List.append_nil _).symm r₁.atLineEnd
    rw [hb.atLineEnd] at hb₁ ih ⊢
    exact ih hb₁ fun hm => hbody (List.mem_append_right _ hm)

/-! ## Steps -/

variable {ε α β : Type} {b₁ b₂ : Bytes} {l₁ l₂ : Bool}

/-- A step makes `x` of the bytes before its reader, of which it leaves `b'`. -/
def Gives (Due : Bytes → σ → Prop) (m : ExceptT ε (StateM (Reader σ)) α) (b : Bytes) (l : Bool)
    (x : Except ε α) (b' : Bytes) (l' : Bool) : Prop :=
  ∀ r, Before Due b l r → ∃ r', m r = (x, r') ∧ Before Due b' l' r'

theorem gives_pure (a : α) (b : Bytes) (l : Bool) :
    Gives Due (pure a : ExceptT ε (StateM (Reader σ)) α) b l (.ok a) b l :=
  fun r hr => ⟨r, rfl, hr⟩

/-- Steps one after the other. -/
theorem Gives.bind {m : ExceptT ε (StateM (Reader σ)) α}
    {f : α → ExceptT ε (StateM (Reader σ)) β} {a : α} {y : Except ε β}
    (hm : Gives Due m b l (.ok a) b₁ l₁) (hf : Gives Due (f a) b₁ l₁ y b₂ l₂) :
    Gives Due (m >>= f) b l y b₂ l₂ := by
  intro r hr
  obtain ⟨r₁, hr₁, hb₁⟩ := hm r hr
  obtain ⟨r₂, hr₂, hb₂⟩ := hf r₁ hb₁
  exact ⟨r₂, by rw [bind_run, hr₁]; exact hr₂, hb₂⟩

/-- A step that fails is the last. -/
theorem Gives.bind_error {m : ExceptT ε (StateM (Reader σ)) α} {e : ε}
    (hm : Gives Due m b l (.error e) b₁ l₁) (f : α → ExceptT ε (StateM (Reader σ)) β) :
    Gives Due (m >>= f) b l (.error e) b₁ l₁ := by
  intro r hr
  obtain ⟨r₁, hr₁, hb₁⟩ := hm r hr
  exact ⟨r₁, by rw [bind_run, hr₁], hb₁⟩

end Reader

namespace Reading

open Reader

variable {σ α : Type} {src : Source σ} {Due : Bytes → σ → Prop} {f rest : Bytes} {l : Bool}

theorem gives_ofExcept (x : Except ProtocolError α) (b : Bytes) (l : Bool) :
    Gives Due (ofExcept x) b l x b l := by
  intro r hr
  cases x <;> exact ⟨r, rfl, hr⟩

theorem gives_field (hs : src.Supplies Due) {split : Bool} {x : UInt8} {t : Terminator}
    (hf : ∀ y ∈ f, terminator? split y = none) (hx : terminator? split x = some t)
    (hsize : f.length ≤ maxFieldSize) :
    Gives Due (field src split) (f ++ x :: rest) l (.ok (f, t)) rest (t = .line) :=
  fun _ hr => fieldFrom_before hs hr hf hx (by omega)

/-- A field and its end. -/
theorem gives_parsed_ended (hs : src.Supplies Due) (parse : Bytes → Except ProtocolError α)
    {x : UInt8} {t : Terminator} (hx : terminator? false x = some t) (hsep : fieldSeparator ∉ f)
    (hend : lineEnd ∉ f) (hsize : f.length ≤ maxFieldSize) :
    Gives Due (parsed src parse) (f ++ x :: rest) l (parse f) rest (t = .line) := by
  have hf : ∀ y ∈ f, terminator? false y = none := fun y hy => by
    simp [terminator?, ne_of_mem_of_not_mem hy hsep, ne_of_mem_of_not_mem hy hend]
  exact (gives_field hs hf hx hsize).bind (gives_ofExcept _ _ _)

/-- A field before a separator. -/
theorem gives_parsed (hs : src.Supplies Due) (parse : Bytes → Except ProtocolError α)
    (hsep : fieldSeparator ∉ f) (hend : lineEnd ∉ f) (hsize : f.length ≤ maxFieldSize) :
    Gives Due (parsed src parse) (f ++ fieldSeparator :: rest) l (parse f) rest false :=
  gives_parsed_ended hs parse (t := .field) rfl hsep hend hsize

/-- The last field of a line. -/
theorem gives_parsed_last (hs : src.Supplies Due) (parse : Bytes → Except ProtocolError α)
    (hsep : fieldSeparator ∉ f) (hend : lineEnd ∉ f) (hsize : f.length ≤ maxFieldSize) :
    Gives Due (parsed src parse) (f ++ lineEnd :: rest) l (parse f) rest true :=
  gives_parsed_ended hs parse (t := .line) rfl hsep hend hsize

/-- The rest of a line. -/
theorem gives_finish (hs : src.Supplies Due) {body : Bytes} (hbody : lineEnd ∉ body) :
    Gives Due (finish src) (body ++ lineEnd :: rest) false (.ok ()) rest true :=
  fun _ hr => skipLine_before hs hr hbody

/-- The rest of a line that has been taken to its end. -/
theorem gives_finish_done (src : Source σ) (b : Bytes) :
    Gives Due (finish src) b true (.ok ()) b true := by
  intro r hr
  refine ⟨r, ?_, hr⟩
  rw [finish, skipLine, if_pos hr.atLineEnd]

/-- The last item of a list, which ends with its field. -/
theorem gives_item_last (hs : src.Supplies Due) {e : Encoding} {x : UInt8} {t : Terminator}
    (hx : terminator? false x = some t) {s : Option String} (acc : List String)
    (hitem : Wire.item e f = .ok s) (hdel : ∀ y ∈ f, isDelimiter y = false)
    (hsize : f.length ≤ maxFieldSize) :
    Gives Due (itemsFrom src e acc) (f ++ x :: rest) l (.ok (acc.reverse ++ s.toList)) rest
      (t = .line) := by
  obtain ⟨hx, ht⟩ := terminator?_of_field hx
  rw [itemsFrom_eq]
  refine (gives_field hs (fun y hy => terminator?_eq_none (hdel y hy)) hx hsize).bind ?_
  simp only [hitem, if_neg ht]
  refine (gives_ofExcept (.ok s) _ _).bind ?_
  have hrev : (s.toList ++ acc).reverse = acc.reverse ++ s.toList := by cases s <;> simp
  rw [hrev]
  exact gives_pure _ _ _

/-- The items of a list, up to the end of its field. -/
theorem gives_itemsFrom (hs : src.Supplies Due) {e : Encoding} {x : UInt8} {t : Terminator}
    (hx : terminator? false x = some t) {ss : List String} (hne : ss ≠ []) (acc : List String)
    (hss : ∀ s ∈ ss, Wire.item e (e.encode s) = .ok (some s) ∧
      (∀ y ∈ e.encode s, isDelimiter y = false) ∧ (e.encode s).length ≤ maxFieldSize) :
    Gives Due (itemsFrom src e acc) (joinWith listSeparator (ss.map e.encode) ++ x :: rest) l
      (.ok (acc.reverse ++ ss)) rest (t = .line) := by
  induction ss generalizing acc l with
  | nil => exact absurd rfl hne
  | cons s ss ih =>
    obtain ⟨⟨hitem, hdel, hsize⟩, hss⟩ := List.forall_mem_cons.1 hss
    cases ss with
    | nil =>
      rw [List.map_singleton, joinWith, List.flatMap_nil, List.append_nil]
      exact gives_item_last hs hx acc hitem hdel hsize
    | cons s' ss =>
      have hjoin : joinWith listSeparator ((s :: s' :: ss).map e.encode) ++ x :: rest =
          e.encode s ++ listSeparator ::
            (joinWith listSeparator ((s' :: ss).map e.encode) ++ x :: rest) := by
        simp [joinWith]
      rw [hjoin, itemsFrom_eq]
      refine (gives_field hs (fun y hy => terminator?_eq_none (hdel y hy)) (t := .item) rfl
        hsize).bind ?_
      simp only [hitem]
      refine (gives_ofExcept (.ok (some s)) _ _).bind ?_
      simpa using ih (List.cons_ne_nil _ _) (s :: acc) (l := false) hss

end Reading

end TagStore
