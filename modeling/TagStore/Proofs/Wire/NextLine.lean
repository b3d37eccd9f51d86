import TagStore.Proofs.Wire.Cutting
import TagStore.Proofs.Wire.Supply

/-!
# Coming to the next line

Calls that read fields may fail at any of them, and the reader that they leave is used further: for
the next reply it must stand at the start of the next line. While a line is read, the reader is
either within it, with the line end still before it, or it has taken the line end and knows that it
has (`Reader.OnLine`). Every call keeps to this, whether it gives a value or fails on what it read
(`Call.keepsToLine_step`); only a field that is too long may leave a reader that has lost the place.
So passing over what is left of the line comes to the next one, and once there it stays
(`Call.finish_run`).
-/

namespace TagStore

open Wire

namespace Arrival

/-- Whether all bytes arrive in pieces one after the other, before anything else happens. What comes
after them brings no bytes: the stream ends, fails or is silent. -/
inductive Fluent : List Arrival → Prop
  | dry {as : List Arrival} (h : joined as = []) : Fluent as
  | piece {b : Bytes} {as : List Arrival} (hb : b ≠ []) (h : Fluent as) : Fluent (bytes b :: as)

namespace Fluent

variable {as : List Arrival} {n : Nat}

theorem of_pieces {ps : List Bytes} (hps : [] ∉ ps) (has : joined as = []) :
    Fluent (ps.map bytes ++ as) := by
  induction ps with
  | nil => exact .dry has
  | cons p ps ih =>
    rw [List.mem_cons, not_or] at hps
    exact .piece (Ne.symm hps.1) (ih hps.2)

protected theorem read (h : Fluent as) : Fluent (Arrival.read n as).2 := by
  cases h with
  | dry h =>
    have hread := joined_read n as
    rw [h] at hread
    exact .dry (List.append_eq_nil_iff.1 hread.symm).2
  | @piece b as hb h =>
    obtain ⟨c, cs, rfl⟩ := List.exists_cons_of_ne_nil hb
    rw [Arrival.read]
    split
    · exact h
    · rename_i hd
      exact .piece hd h

/-- A read that brings nothing has met the end of the bytes. -/
theorem joined_eq_nil (h : Fluent as) (hn : 0 < n) (ht : (Arrival.read n as).1.taken = []) :
    joined as = [] := by
  cases h with
  | dry h => exact h
  | piece hb h => exact absurd ht (taken_read_ne_nil _ hn hb)

end Fluent

/-- Pieces bring what is due. -/
theorem supplies_fluent (limit : Option Duration) :
    (source limit).Supplies fun b as => joined as = b ∧ Fluent as where
  read := by
    rintro b as n ⟨rfl, h⟩
    exact ⟨_, joined_read n as, rfl, h.read⟩
  progress := by
    rintro b as n hn ⟨rfl, h⟩ ht
    exact h.joined_eq_nil hn ht

end Arrival

namespace Wire

/-- The first field of a line, or the first item of a list in it: it is the last of the line, or the
rest of the line follows its end. -/
theorem exists_first_field (split : Bool) {body : Bytes} (rest : Bytes) (hbody : lineEnd ∉ body) :
    ∃ f x t left, body ++ lineEnd :: rest = f ++ x :: left ∧
      (∀ y ∈ f, terminator? split y = none) ∧ terminator? split x = some t ∧
      (t = .line ∧ left = rest ∨
        t ≠ .line ∧ ∃ body', lineEnd ∉ body' ∧ left = body' ++ lineEnd :: rest) := by
  induction body with
  | nil => exact ⟨[], lineEnd, .line, rest, rfl, nofun, rfl, .inl ⟨rfl, rfl⟩⟩
  | cons y ys ih =>
    rw [List.mem_cons, not_or] at hbody
    cases hy : terminator? split y with
    | some t =>
      refine ⟨[], y, t, ys ++ lineEnd :: rest, rfl, nofun, hy, .inr ⟨?_, ys, hbody.2, rfl⟩⟩
      rintro rfl
      rw [terminator?, if_neg (Ne.symm hbody.1)] at hy
      split at hy
      · cases hy
      · split at hy <;> cases hy
    | none =>
      obtain ⟨f, x, t, left, heq, hf, hx, hleft⟩ := ih hbody.2
      exact ⟨y :: f, x, t, left, congrArg (y :: ·) heq, List.forall_mem_cons.2 ⟨hy, hf⟩, hx, hleft⟩

end Wire

namespace Reader

variable {σ : Type} {src : Source σ} {Due : Bytes → σ → Prop} {rest : Bytes} {l : Bool}
  {r : Reader σ}

/-- Whether a reader has the end of a line before it, and `rest` after that. -/
def Within (Due : Bytes → σ → Prop) (rest : Bytes) (l : Bool) (r : Reader σ) : Prop :=
  ∃ body, lineEnd ∉ body ∧ Before Due (body ++ lineEnd :: rest) l r

/-- Where a reader stands on a line that it has begun to read, if `rest` follows the line. -/
inductive OnLine (Due : Bytes → σ → Prop) (rest : Bytes) (r : Reader σ) : Prop
  | within (h : Within Due rest false r)
  | past (h : Before Due rest true r)

/-- Where a field leaves its reader: past the line if the line end has ended it, and within the line
otherwise. -/
def EndedAt (Due : Bytes → σ → Prop) (rest : Bytes) (t : Terminator) (r : Reader σ) : Prop :=
  t = .line ∧ Before Due rest true r ∨ t ≠ .line ∧ Within Due rest false r

theorem EndedAt.onLine {t : Terminator} (h : EndedAt Due rest t r) : OnLine Due rest r := by
  obtain ⟨-, h⟩ | ⟨-, h⟩ := h
  · exact .past h
  · exact .within h

/-- **A field is read to its end**, unless it is too long, and its reader knows what the end was. -/
theorem Within.ends (hs : src.Supplies Due) (split : Bool) (h : Within Due rest l r) :
    match fieldFrom src split [] 0 r with
    | (.error e, _) => e = tooLong
    | (.ok (_, t), r') => EndedAt Due rest t r' := by
  obtain ⟨body, hbody, hr⟩ := h
  obtain ⟨f, x, t, left, heq, hf, hx, hleft⟩ := exists_first_field split rest hbody
  rw [heq] at hr
  obtain ⟨r', hrun, hr'⟩ | ⟨herr, -⟩ :
      (∃ r', fieldFrom src split [] 0 r = (.ok (f, t), r') ∧ Before Due left (t = .line) r') ∨
        (fieldFrom src split [] 0 r).1 = .error tooLong ∧ maxFieldSize < 0 + f.length :=
    fieldFrom_before_or hs hr hf hx
  · rw [hrun]
    obtain ⟨rfl, rfl⟩ | ⟨ht, body', hbody', rfl⟩ := hleft
    · exact .inl ⟨rfl, hr'⟩
    · rw [decide_eq_false ht] at hr'
      exact .inr ⟨ht, body', hbody', hr'⟩
  · rcases hrun : fieldFrom src split [] 0 r with ⟨y, r'⟩
    rw [hrun] at herr
    cases herr
    rfl

/-- Passing over the rest of a line comes to what follows the line. -/
theorem skipLine_onLine (hs : src.Supplies Due) (h : OnLine Due rest r) :
    ∃ r', skipLine src r = (.ok (), r') ∧ Before Due rest true r' := by
  cases h with
  | within h =>
    obtain ⟨body, hbody, hr⟩ := h
    exact skipLine_before hs hr hbody
  | past h =>
    refine ⟨r, ?_, h⟩
    rw [skipLine, if_pos h.atLineEnd]

end Reader

namespace Reading

open Reader

variable {σ α β : Type} {src : Source σ} {Due : Bytes → σ → Prop} {rest : Bytes} {l : Bool}
  {r : Reader σ}

/-- Whether a step keeps to the line, unless it finds a field too long. -/
def KeepsToLine (Due : Bytes → σ → Prop) (rest : Bytes) (m : Reading σ α) : Prop :=
  ∀ l r, Within Due rest l r → (m r).1 = .error tooLong ∨ OnLine Due rest (m r).2

/-- What is made of the bytes of a field does not move the reader. -/
theorem KeepsToLine.bind {m : Reading σ α} (hm : KeepsToLine Due rest m) {f : α → Reading σ β}
    (hf : ∀ a r, (f a r).2 = r) : KeepsToLine Due rest (m >>= f) := by
  intro l r h
  have hr := hm l r h
  rw [bind_run]
  rcases hx : m r with ⟨x, r'⟩
  rw [hx] at hr
  cases x with
  | error e =>
    obtain he | hr := hr
    · exact .inl (congrArg Except.error (Except.error.inj he))
    · exact .inr hr
  | ok a =>
    obtain he | hr := hr
    · cases he
    · exact .inr (by rwa [hf a r'])

theorem ofExcept_snd (x : Except ProtocolError α) (r : Reader σ) : (ofExcept x r).2 = r := by
  cases x <;> rfl

theorem keepsToLine_field (hs : src.Supplies Due) (split : Bool) :
    KeepsToLine Due rest (field src split) := by
  intro l r h
  have hread := h.ends hs split
  rw [field]
  split at hread
  · rename_i hrun
    exact .inl (by rw [hrun, hread])
  · rename_i hrun
    exact .inr (by rw [hrun]; exact hread.onLine)

theorem keepsToLine_parsed (hs : src.Supplies Due) (parse : Bytes → Except ProtocolError α) :
    KeepsToLine Due rest (parsed src parse) :=
  (keepsToLine_field hs false).bind fun _ r => ofExcept_snd _ r

/-- **A list keeps to its line**, also if it stops at an item that cannot be read: an item within
the list leaves its reader within the line, and so does the last one unless the line ends there. -/
theorem keepsToLine_itemsFrom (hs : src.Supplies Due) (e : Encoding) (acc : List String) :
    KeepsToLine Due rest (itemsFrom src e acc) := by
  intro l r h
  fun_induction itemsFrom src e acc r generalizing l with
  | case1 acc r e' r' hrun =>
    have hread := h.ends hs true
    rw [hrun] at hread
    exact .inl (congrArg Except.error hread)
  | case2 acc r f t r' hrun e' hitem =>
    have hread := h.ends hs true
    rw [hrun] at hread
    exact .inr hread.onLine
  | case3 acc r f r' s hitem acc' hrun ih =>
    have hread := h.ends hs true
    rw [hrun] at hread
    obtain ⟨ht, -⟩ | ⟨-, hread⟩ := hread
    · cases ht
    · exact ih false hread
  | case4 acc r f t r' hrun s hitem acc' ht =>
    have hread := h.ends hs true
    rw [hrun] at hread
    exact .inr hread.onLine

namespace Call

/-- **Every call keeps to its line**, whether it gives a value or fails on what it read. -/
theorem keepsToLine_step (hs : src.Supplies Due) {c : Call} (hc : c ≠ .finish) :
    KeepsToLine Due rest (c.step src) := by
  cases c with
  | expectOpcode op =>
    exact ((keepsToLine_parsed hs _).bind fun _ r => ofExcept_snd _ r).bind fun _ _ => rfl
  | strings e => exact (keepsToLine_itemsFrom hs e []).bind fun _ _ => rfl
  | finish => exact absurd rfl hc
  | block | status | number | string | value =>
    exact (keepsToLine_parsed hs _).bind fun _ _ => rfl

/-- **Calls keep to their line** as long as none begins past it. -/
theorem run_onLine (hs : src.Supplies Due) {cs : List Call} (hne : cs ≠ []) (hcs : .finish ∉ cs)
    (hr : Within Due rest l r)
    (hbegin : ∀ i < cs.length, ¬Before Due rest true (run src (cs.take i) r).2)
    (hlong : .error tooLong ∉ (run src cs r).1) : OnLine Due rest (run src cs r).2 := by
  induction cs generalizing l r with
  | nil => exact absurd rfl hne
  | cons c cs ih =>
    rw [List.mem_cons, not_or] at hcs
    rw [run_cons_eq, List.mem_cons, not_or] at hlong
    have hstep := (keepsToLine_step hs (Ne.symm hcs.1) l r hr).resolve_left (Ne.symm hlong.1)
    cases cs with
    | nil => exact hstep
    | cons c' cs =>
      cases hstep with
      | past h => exact absurd h (hbegin 1 (by simp))
      | within h =>
        rw [run_cons_eq]
        exact ih (List.cons_ne_nil _ _) hcs.2 h
          (fun i hi => hbegin (i + 1) (Nat.succ_lt_succ hi)) hlong.2

theorem leftover_of_before {r : Reader (List Arrival)} {b : Bytes}
    (h : Before (fun b as => Arrival.joined as = b ∧ Arrival.Fluent as) b l r) :
    r.leftover = b := by
  obtain ⟨-, -, b', rfl, rfl, -⟩ := h
  rfl

/-- **Finishing a line always comes to the next one.** A line and what follows it arrive in any
pieces, and any calls that read fields have been made on the line, each begun before the line end
was taken; they have given values or failed, and only a field that is too long is left out. Then
finishing goes well and leaves just what follows the line; and to finish again leaves the reader as
it is, whatever there is to read from. -/
theorem finish_run (limit : Option Duration) {cs : List Call} {r : Reader (List Arrival)}
    {line rest : Bytes} (hfluent : Arrival.Fluent r.stream) (hroom : 0 < r.buffer.capacity)
    (hr : r.leftover = line ++ lineEnd :: rest) (hline : lineEnd ∉ line) (hne : cs ≠ [])
    (hcs : .finish ∉ cs)
    (hbegin : ∀ i < cs.length,
      rest.length < (run (Arrival.source limit) (cs.take i) r).2.leftover.length)
    (hlong : .error tooLong ∉ (run (Arrival.source limit) cs r).1) :
    ∃ r', Reading.finish (Arrival.source limit) (run (Arrival.source limit) cs r).2 =
        (.ok (), r') ∧
      r'.leftover = rest ∧
      ∀ src : Source (List Arrival), Reading.finish src r' = (.ok (), r') := by
  have hwithin : Within (fun b as => Arrival.joined as = b ∧ Arrival.Fluent as) rest r.atLineEnd r :=
    ⟨line, hline, hroom, rfl, _, hr.symm, rfl, hfluent⟩
  have hon := run_onLine (Arrival.supplies_fluent limit) hne hcs hwithin
    (fun i hi hpast => absurd (hbegin i hi) (by simp [leftover_of_before hpast])) hlong
  obtain ⟨r', hfinish, hr'⟩ := skipLine_onLine (Arrival.supplies_fluent limit) hon
  refine ⟨r', hfinish, leftover_of_before hr', fun src => ?_⟩
  rw [Reading.finish, skipLine, if_pos hr'.atLineEnd]

/-- A list with an item that is not in Base64, within the list and at the end of the line. The first
of the two lines is followed by the start of the next, and then by silence. -/
theorem finish_run_bad_item :
    let cs := [Call.status, .strings .base64]
    let pieces : List Bytes := [Bytes.ofString "true,Y", Bytes.ofString "Q==:!!:Y",
      Bytes.ofString "g==,1\nfal"]
    let r := Reader.start (pieces.map .bytes ++ [.silence]) (.ofCapacity 5)
    let last := Reader.start [.bytes (Bytes.ofString "true,YQ==:!!\n")] .standard
    (∃ r', Reading.finish (Arrival.source none) (run (Arrival.source none) cs r).2 =
        (.ok (), r') ∧
      r'.leftover = Bytes.ofString "fal") ∧
    ∃ r', Reading.finish (Arrival.source none) (run (Arrival.source none) cs last).2 =
        (.ok (), r') ∧
      r'.leftover = [] := by
  intro cs pieces r last
  have hsized : ∀ {xs : List (Except ProtocolError Answer)},
      xs.all (fun | .error (.format _) => false | _ => true) = true → .error tooLong ∉ xs :=
    fun h hm => absurd (List.all_eq_true.1 h _ hm) Bool.false_ne_true
  have hne : cs ≠ [] := nofun
  have hcs : .finish ∉ cs := by simp [cs]
  have hr : r.leftover =
      Bytes.ofString "true,YQ==:!!:Yg==,1" ++ lineEnd :: Bytes.ofString "fal" := by decide
  have hlast : last.leftover = Bytes.ofString "true,YQ==:!!" ++ lineEnd :: [] := by decide
  constructor
  · obtain ⟨r', hfinish, hleft, -⟩ := finish_run none (.of_pieces (by decide) rfl) (by decide) hr
      (by decide) hne hcs (by decide +kernel) (hsized (by decide +kernel))
    exact ⟨r', hfinish, hleft⟩
  · obtain ⟨r', hfinish, hleft, -⟩ := finish_run none (.piece (by decide) (.dry rfl)) (by decide)
      hlast (by decide) hne hcs (by decide +kernel) (hsized (by decide +kernel))
    exact ⟨r', hfinish, hleft⟩

end Call

end Reading

end TagStore
