import TagStore.Proofs.Wire.Trace

/-!
# How the bytes of a reply are cut

Bytes may arrive in any number of pieces, and a buffer of any size may refill itself from them. A
reader on pieces is compared with a reader that holds all the bytes (`Call.run_pieces`): call by
call the two come to the same result, and what is left to them is the same. So neither the cuts nor
the size of the buffer can be told from the results (`Call.run_cut`).

The one limit is the length of a field. How much of a field that is too long has been taken when
that is found out depends on the cuts, so the bytes must not hold a run of more than `maxFieldSize`
bytes without a separator or line end (`Narrow`). For a step of one field it is enough that this
field is no longer (`parsed_leftover`).
-/

namespace TagStore

open Wire

namespace Arrival

/-- The bytes that arrivals bring. -/
def joined : List Arrival → Bytes
  | [] => []
  | bytes b :: r => b ++ joined r
  | failure _ :: r | silence :: r => joined r

/-- Only bytes arrive, and never none at all. -/
def Plain (as : List Arrival) : Prop := ∀ a ∈ as, ∃ b, b ≠ [] ∧ a = bytes b

theorem joined_map_bytes (ps : List Bytes) : joined (ps.map bytes) = ps.flatten := by
  induction ps with
  | nil => rfl
  | cons p ps ih => simp [joined, ih]

theorem plain_map_bytes {ps : List Bytes} (h : [] ∉ ps) : Plain (ps.map bytes) := by
  intro a ha
  obtain ⟨p, hp, rfl⟩ := List.mem_map.1 ha
  exact ⟨p, fun he => h (he ▸ hp), rfl⟩

/-- A read of what arrives takes bytes from the head of it. -/
theorem joined_read (n : Nat) (as : List Arrival) :
    joined as = (read n as).1.taken ++ joined (read n as).2 := by
  fun_cases read n as <;> simp [joined, Received.taken, ← List.append_assoc]

theorem plain_read {n : Nat} {as : List Arrival} (h : Plain as) : Plain (read n as).2 := by
  fun_cases read n as with
  | case1 => exact h
  | case6 b bs r hd =>
    intro a ha
    rcases List.mem_cons.1 ha with rfl | ha
    · exact ⟨_, hd, rfl⟩
    · exact h a (List.mem_cons_of_mem _ ha)
  | _ => exact fun a ha => h a (List.mem_cons_of_mem _ ha)

/-- A read that meets bytes brings some of them. -/
theorem taken_read_ne_nil {n : Nat} {b : Bytes} (as : List Arrival) (hn : 0 < n) (hb : b ≠ []) :
    (read n (bytes b :: as)).1.taken ≠ [] := by
  obtain ⟨c, cs, rfl⟩ := List.exists_cons_of_ne_nil hb
  obtain ⟨m, rfl⟩ : ∃ m, n = m + 1 := ⟨n - 1, by omega⟩
  rw [read]
  split <;> simp [Received.taken]

/-- A read of some bytes that brings none has met the end. -/
theorem read_taken_eq_nil {n : Nat} {as : List Arrival} (h : Plain as) (hn : 0 < n)
    (ht : (read n as).1.taken = []) : as = [] := by
  cases as with
  | nil => rfl
  | cons a r =>
    obtain ⟨b, hb, rfl⟩ := h a List.mem_cons_self
    exact absurd ht (taken_read_ne_nil r hn hb)

variable {limit : Option Duration} {n : Nat} {s s' : List Arrival} {b : Bytes}

/-- What reads bring stands at the head of what arrives. -/
theorem joined_brings (h : (source limit).Brings n s b s') (hs : Plain s) :
    joined s = b ++ joined s' ∧ Plain s' := by
  induction h with
  | refl => exact ⟨rfl, hs⟩
  | @read s₁ s₂ b x _ hr ih =>
    obtain ⟨hj, hp⟩ := ih
    have hj' := joined_read n s₁
    have hp' := plain_read (n := n) hp
    rw [show read n s₁ = (x, s₂) from hr] at hj' hp'
    exact ⟨by rw [hj, hj', List.append_assoc], hp'⟩

end Arrival

/-- No run between separators and line ends is longer than a field may be. -/
def Narrow (b : Bytes) : Prop :=
  ∀ run, run <:+: b → fieldSeparator ∉ run → lineEnd ∉ run → run.length ≤ maxFieldSize

theorem Narrow.of_suffix {b c : Bytes} (h : Narrow b) (hc : c <:+ b) : Narrow c :=
  fun run hr => h run (hr.trans hc.isInfix)

theorem Narrow.of_length {b : Bytes} (h : b.length ≤ maxFieldSize) : Narrow b :=
  fun _ hr _ _ => hr.length_le.trans h

/-- All that is left to a reader: its unread bytes, and those that still arrive. -/
def Reader.leftover (r : Reader (List Arrival)) : Bytes :=
  r.buffer.unread ++ Arrival.joined r.stream

namespace Reading

variable {α : Type} {limit : Option Duration}

/-- What arrivals leave to be read is plain and narrow, and the buffer can take some of it. -/
structure Ready (r : Reader (List Arrival)) : Prop where
  plain : Arrival.Plain r.stream
  room : 0 < r.buffer.capacity
  narrow : Narrow r.leftover

/-- **A step reads from pieces as it reads bytes at hand**, and leaves as much. -/
theorem AgreesAt.leftover {m : Reading (List Arrival) α} {m' : Reading Unit α}
    {r : Reader (List Arrival)} (h : AgreesAt (Arrival.source limit) m m' r) (hr : Ready r) :
    m' (.holding r.leftover r.atLineEnd) =
        ((m r).1, .holding (m r).2.leftover (m r).2.atLineEnd) ∧ Ready (m r).2 := by
  obtain ⟨hc, h⟩ := h
  generalize (m r).2 = r' at hc h ⊢
  have room : 0 < r'.buffer.capacity := hc ▸ hr.room
  generalize (m r).1 = x at h ⊢
  cases h with
  | @settled _ got used hb hu hm =>
    obtain ⟨hj, hp⟩ := Arrival.joined_brings hb hr.plain
    have hl : r.leftover = used ++ r'.leftover := by
      simp only [Reader.leftover]
      rw [hj, ← List.append_assoc, hu, List.append_assoc]
    rw [hl, hm]
    exact ⟨rfl, hp, room, hr.narrow.of_suffix (hl ▸ List.suffix_append _ _)⟩
  | @starved got s y hb hx ht hn hm =>
    obtain ⟨hj, hp⟩ := Arrival.joined_brings hb hr.plain
    have hx : Arrival.read r.buffer.capacity s = (y, r'.stream) := hx
    obtain rfl : s = [] := Arrival.read_taken_eq_nil hp hr.room (by rw [hx]; exact ht)
    obtain ⟨rfl, hs⟩ := Prod.mk.inj hx
    have hl : r.leftover = r.buffer.unread ++ got := by
      simp [Reader.leftover, hj, Arrival.joined]
    have hl' : r'.leftover = [] := by simp [Reader.leftover, hn, ← hs, Arrival.joined]
    rw [hl, hm, hl']
    exact ⟨rfl, hs ▸ hp, room, hl' ▸ .of_length (Nat.zero_le _)⟩
  | @overlong got run hb hrun hs hl hlen =>
    obtain ⟨hj, -⟩ := Arrival.joined_brings hb hr.plain
    have hin : run <:+: r.leftover := by
      rw [Reader.leftover, hj, ← List.append_assoc]
      exact hrun.isInfix.trans (List.prefix_append _ _).isInfix
    exact absurd (hr.narrow run hin hs hl) (Nat.not_le.2 hlen)

/-! ## One field -/

/-- **A field at the head of what is left is read**, however it is cut, and what follows its end is
left. -/
theorem parsed_leftover (limit : Option Duration) (parse : Bytes → Except ProtocolError α)
    {r : Reader (List Arrival)} {f rest : Bytes} {x : UInt8} (hp : Arrival.Plain r.stream)
    (hroom : 0 < r.buffer.capacity) (hf : ∀ y ∈ f, y ≠ fieldSeparator ∧ y ≠ lineEnd)
    (hlen : f.length ≤ maxFieldSize) (hx : x = fieldSeparator ∨ x = lineEnd)
    (hr : r.leftover = f ++ x :: rest) :
    (parsed (Arrival.source limit) parse r).1 = parse f ∧
      (parsed (Arrival.source limit) parse r).2.leftover = rest := by
  have hbody : ∀ y ∈ f, terminator? false y = none := fun y hy => by
    rw [terminator?, if_neg (hf y hy).1, if_neg (hf y hy).2]
    rfl
  obtain ⟨t, ht⟩ : ∃ t, terminator? false x = some t := by
    rcases hx with rfl | rfl
    · exact ⟨.field, rfl⟩
    · exact ⟨.line, rfl⟩
  have htake := Reader.takeField_append_cons [] rest hbody ht
  rw [List.append_nil, ← hr] at htake
  obtain ⟨-, hread⟩ :=
    Reader.fieldRead_fieldFrom (Arrival.source limit) false [] 0 r (Nat.zero_le _)
  rw [parsed, bind_run, field]
  rcases hy : Reader.fieldFrom (Arrival.source limit) false [] 0 r with ⟨y, r'⟩
  rw [hy] at hread
  cases hread with
  | @ends got g t' hb ht hl =>
    obtain ⟨hj, -⟩ := Arrival.joined_brings hb hp
    obtain ⟨used, hu, hmore⟩ := Reader.takeField_ends ht
    have hleft : r.leftover = used ++ r'.leftover := by
      rw [Reader.leftover, hj, ← List.append_assoc, hu, List.append_assoc]
      rfl
    rw [hleft, hmore] at htake
    obtain ⟨rfl, hend⟩ := Prod.mk.inj htake
    obtain ⟨-, hrest⟩ := Prod.mk.inj (Option.some.inj hend)
    rw [List.reverse_reverse]
    simp only
    cases parse f with
    | ok a => exact ⟨rfl, hrest⟩
    | error e => exact ⟨rfl, hrest⟩
  | @starved got g s z hb hz hzt ht hs hu hl =>
    -- a read that brings nothing has met the end, so the field would have no end
    obtain ⟨hj, hp'⟩ := Arrival.joined_brings hb hp
    have hz : Arrival.read r.buffer.capacity s = (z, r'.stream) := hz
    obtain rfl : s = [] := Arrival.read_taken_eq_nil hp' hroom (by rw [hz]; exact hzt)
    have hleft : r.leftover = r.buffer.unread ++ got := by
      rw [Reader.leftover, hj, Arrival.joined, List.append_nil]
    rw [hleft, ht] at htake
    cases htake
  | @overlong got g hb ht hs =>
    -- what was brought has no separator, so it stands within the field
    obtain ⟨hj, -⟩ := Arrival.joined_brings hb hp
    obtain ⟨h₁, h₂⟩ := Reader.forall_of_takeField ht
    have hpre : r.buffer.unread ++ got <+: f ++ x :: rest := by
      rw [← hr, Reader.leftover, hj, ← List.append_assoc]
      exact List.prefix_append _ _
    have hle : (r.buffer.unread ++ got).length ≤ f.length := by
      apply Nat.le_of_not_lt
      intro hlt
      have hmem : x ∈ r.buffer.unread ++ got := by
        have h := List.prefix_of_prefix_length_le (List.prefix_append (f ++ [x]) rest)
          (by simpa using hpre) (by simpa [Nat.succ_le_iff] using hlt)
        exact h.subset (by simp)
      rcases hx with rfl | rfl
      · exact h₁ hmem
      · exact h₂ hmem
    omega

/-! ## Calls -/

/-- A call on a reader of replies. -/
inductive Call
  | expectOpcode (op : Opcode)
  | block (op : Opcode)
  | status
  | number
  | string (e : Encoding)
  | strings (e : Encoding)
  | value (codec : PayloadCodec)
  | finish

/-- What a call that goes well gives. -/
inductive Answer
  | done
  | more (more : Bool)
  | status (s : Status)
  | number (n : Nat)
  | string (s : Option String)
  | strings (ss : List String)
  | value (v : Option Value)

namespace Call

variable {σ : Type}

/-- The step of reading that a call makes. -/
def step (src : Source σ) : Call → Reading σ Answer
  | expectOpcode op => do Reading.expectOpcode src op; pure .done
  | block op => do return .more (← Reading.block src op)
  | status => do return .status (← Reading.status src)
  | number => do return .number (← Reading.number src)
  | string e => do return .string (← Reading.string src e)
  | strings e => do return .strings (← Reading.strings src e)
  | value codec => do return .value (← Reading.value src codec)
  | finish => do Reading.finish src; pure .done

/-- The results of calls made one after the other, also after calls that fail. -/
def run (src : Source σ) : List Call → Reader σ → List (Except ProtocolError Answer) × Reader σ
  | [], r => ([], r)
  | c :: cs, r =>
    let (x, r) := c.step src r
    let (xs, r) := run src cs r
    (x :: xs, r)

theorem run_cons_eq (src : Source σ) (c : Call) (cs : List Call) (r : Reader σ) :
    run src (c :: cs) r =
      ((c.step src r).1 :: (run src cs (c.step src r).2).1, (run src cs (c.step src r).2).2) := rfl

theorem agreesAt_step (src : Source σ) (c : Call) (r : Reader σ) :
    AgreesAt src (c.step src) (c.step .ended) r := by
  cases c with
  | expectOpcode op => exact (agreesAt_expectOpcode op r).bind fun _ _ _ => agreesAt_pure _ _
  | strings e => exact (agreesAt_itemsFrom e [] r).bind fun _ _ _ => agreesAt_pure _ _
  | finish => exact (agreesAt_finish src r).bind fun _ _ _ => agreesAt_pure _ _
  | block | status | number | string | value =>
    exact (agreesAt_parsed _ r).bind fun _ _ _ => agreesAt_pure _ _

/-- Calls on pieces come to what they come to on bytes at hand. -/
theorem run_ready (limit : Option Duration) (cs : List Call) {r : Reader (List Arrival)}
    (hr : Ready r) :
    (run (Arrival.source limit) cs r).1 = (run .ended cs (.holding r.leftover r.atLineEnd)).1 ∧
      (run (Arrival.source limit) cs r).2.leftover =
        (run .ended cs (.holding r.leftover r.atLineEnd)).2.buffer.unread := by
  induction cs generalizing r with
  | nil => exact ⟨rfl, rfl⟩
  | cons c cs ih =>
    obtain ⟨he, hr'⟩ := (agreesAt_step (Arrival.source limit) c r).leftover hr
    obtain ⟨h₁, h₂⟩ := ih hr'
    simp only [run_cons_eq, he]
    exact ⟨congrArg _ h₁, h₂⟩

theorem run_pieces (limit : Option Duration) (cs : List Call) {ps : List Bytes} (capacity : Nat)
    (hps : [] ∉ ps) (hn : Narrow ps.flatten) :
    (run (Arrival.source limit) cs (.start (ps.map .bytes) (.ofCapacity capacity))).1 =
        (run .ended cs (.holding ps.flatten true)).1 ∧
      (run (Arrival.source limit) cs (.start (ps.map .bytes) (.ofCapacity capacity))).2.leftover =
        (run .ended cs (.holding ps.flatten true)).2.buffer.unread := by
  have hl : (Reader.start (ps.map Arrival.bytes) (.ofCapacity capacity)).leftover = ps.flatten :=
    Arrival.joined_map_bytes ps
  have hr : Ready (Reader.start (ps.map Arrival.bytes) (.ofCapacity capacity)) :=
    ⟨Arrival.plain_map_bytes hps, Nat.le_max_right _ _, hl ▸ hn⟩
  have h := run_ready limit cs hr
  rwa [hl] at h

/-- **How the bytes of a reply are cut does not matter.** -/
theorem run_cut (cs : List Call) (ps qs : List Bytes) (m n : Nat) (limit limit' : Option Duration)
    (hps : [] ∉ ps) (hqs : [] ∉ qs) (heq : ps.flatten = qs.flatten) (hn : Narrow ps.flatten) :
    (run (Arrival.source limit) cs (.start (ps.map .bytes) (.ofCapacity m))).1 =
        (run (Arrival.source limit') cs (.start (qs.map .bytes) (.ofCapacity n))).1 ∧
      (run (Arrival.source limit) cs (.start (ps.map .bytes) (.ofCapacity m))).2.leftover =
        (run (Arrival.source limit') cs (.start (qs.map .bytes) (.ofCapacity n))).2.leftover := by
  obtain ⟨h₁, h₂⟩ := run_pieces limit cs m hps hn
  obtain ⟨h₃, h₄⟩ := run_pieces limit' cs n hqs (heq ▸ hn)
  rw [h₁, h₂, h₃, h₄, heq]
  exact ⟨rfl, rfl⟩

/-- A status and a number that arrive in three pieces, or in one. -/
theorem run_cut_status :
    let cs := [Call.status, .number, .number, .finish]
    let ps : List Bytes := [[116, 114], [117, 101, 44, 49], [50, 10]]
    let qs : List Bytes := [[116, 114, 117, 101, 44, 49, 50, 10]]
    (run (Arrival.source none) cs (.start (ps.map .bytes) (.ofCapacity 0))).1 =
        (run (Arrival.source none) cs (.start (qs.map .bytes) (.ofCapacity 16))).1 ∧
      (run (Arrival.source none) cs (.start (ps.map .bytes) (.ofCapacity 0))).2.leftover =
        (run (Arrival.source none) cs (.start (qs.map .bytes) (.ofCapacity 16))).2.leftover :=
  run_cut _ _ _ 0 16 none none (by decide) (by decide) rfl
    (.of_length (by simp [maxFieldSize]))

end Call

end Reading

end TagStore
