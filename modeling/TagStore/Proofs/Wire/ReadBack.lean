import TagStore.Proofs.Client.RequestLine
import TagStore.Proofs.Wire.Cutting
import TagStore.Proofs.Wire.Supply

/-!
# Reading a request back

The fields of a request are read by the rules by which they are written. `Field.ReadsBack f c a`
says of a field which call reads it and what that call gives: a number, a text that is there or
absent, a list of texts, or the empty text of a field without bytes. A text that travels as it is
must not have the form of an absent one, nor bytes that would end it; in Base64 every text is read
back.

One field is read whatever follows its end (`Field.ReadsBack.gives`), and so the fields of a line
are read one after the other (`Call.gives_fields`). The line of a request, in whatever pieces it
arrives, gives back the number of its operation and its fields, and leaves just what follows it
(`Call.run_line`).
-/

namespace TagStore

open Wire Reader

/-- Arrivals of bytes bring what is due. -/
theorem Arrival.supplies (limit : Option Duration) :
    (source limit).Supplies fun b as => joined as = b ∧ Plain as where
  read := by
    rintro b as n ⟨rfl, hp⟩
    exact ⟨_, joined_read n as, rfl, plain_read hp⟩
  progress := by
    rintro b as n hn ⟨rfl, hp⟩ ht
    rw [read_taken_eq_nil hp hn ht]
    rfl

theorem Opcode.code_le (op : Opcode) : op.code ≤ Text.maxU64 := by cases op <;> decide

namespace Wire

/-! ## Fields -/

/-- Whether a text is read back from a field of its own. -/
structure Encoding.Admits (e : Encoding) (s : String) : Prop where
  raw : e = .raw → Contained (Bytes.ofString s) ∧ Bytes.ofString s ≠ absent
  size : (e.encode s).length ≤ maxFieldSize

/-- Whether a text is read back from a list. -/
structure Encoding.AdmitsItem (e : Encoding) (s : String) : Prop extends e.Admits s where
  ne_empty : s ≠ ""
  listed : e = .raw → listSeparator ∉ Bytes.ofString s

namespace Encoding

variable {e : Encoding} {s : String}

instance (b : Bytes) : Decidable (Contained b) :=
  inferInstanceAs (Decidable (fieldSeparator ∉ b ∧ lineEnd ∉ b))

instance : Decidable (e.Admits s) :=
  decidable_of_iff ((e = .raw → Contained (Bytes.ofString s) ∧ Bytes.ofString s ≠ absent) ∧
    (e.encode s).length ≤ maxFieldSize) ⟨fun h => ⟨h.1, h.2⟩, fun h => ⟨h.1, h.2⟩⟩

instance : Decidable (e.AdmitsItem s) :=
  decidable_of_iff (e.Admits s ∧ s ≠ "" ∧ (e = .raw → listSeparator ∉ Bytes.ofString s))
    ⟨fun h => ⟨h.1, h.2.1, h.2.2⟩, fun h => ⟨h.toAdmits, h.ne_empty, h.listed⟩⟩

theorem Admits.contained (h : e.Admits s) : Contained (e.encode s) := by
  cases e with
  | raw => exact (h.raw rfl).1
  | base64 => exact contained_base64 _

theorem Admits.ne_absent (h : e.Admits s) : e.encode s ≠ absent := by
  cases e with
  | raw => exact (h.raw rfl).2
  | base64 => exact Base64.encode_ne_absent _

theorem AdmitsItem.not_isDelimiter (h : e.AdmitsItem s) :
    ∀ y ∈ e.encode s, isDelimiter y = false := by
  intro y hy
  cases e with
  | raw =>
    obtain ⟨hsep, hend⟩ := h.contained
    simp [isDelimiter, ne_of_mem_of_not_mem hy hsep, ne_of_mem_of_not_mem hy hend,
      ne_of_mem_of_not_mem hy (h.listed rfl)]
  | base64 => exact Base64.not_isDelimiter_of_mem_encode hy

end Encoding

open Reading

/-- What call reads a field, and what the call gives. -/
inductive Field.ReadsBack : Field → Call → Answer → Prop
  | number {n : Nat} (h : n ≤ Text.maxU64) : ReadsBack (.number n) .number (.number n)
  | missing (e : Encoding) : ReadsBack (.text none e) (.string e) (.string none)
  | text {e : Encoding} {s : String} (h : e.Admits s) :
    ReadsBack (.text (some s) e) (.string e) (.string (some s))
  | list {e : Encoding} {items : List String} (h : ∀ s ∈ items, e.AdmitsItem s) :
    ReadsBack (.list items e) (.strings e) (.strings items)
  | empty (e : Encoding) : ReadsBack .empty (.string e) (.string (some ""))

variable {σ : Type} {src : Source σ} {Due : Bytes → σ → Prop} {rest : Bytes} {l : Bool}
  {x : UInt8} {t : Terminator}

/-- A field that is read by a rule of its own. -/
theorem gives_parsed_as {α : Type} (hs : src.Supplies Due) (hx : terminator? false x = some t)
    {parse : Bytes → Except ProtocolError α} {f : Bytes} {a : α} (hparse : parse f = .ok a)
    (hf : Contained f) (hsize : f.length ≤ maxFieldSize) :
    Gives Due (parsed src parse) (f ++ x :: rest) l (.ok a) rest (t = .line) := by
  rw [← hparse]
  exact gives_parsed_ended hs parse hx hf.1 hf.2 hsize

theorem gives_string (hs : src.Supplies Due) (hx : terminator? false x = some t) {e : Encoding}
    {s : String} (h : e.Admits s) :
    Gives Due (Reading.string src e) (e.encode s ++ x :: rest) l (.ok (some s)) rest
      (t = .line) :=
  gives_parsed_as hs hx (string_encode h.ne_absent) h.contained h.size

/-- The items of a list. A list without items is absent, and an absent item is passed over. -/
theorem gives_strings (hs : src.Supplies Due) (hx : terminator? false x = some t) {e : Encoding}
    {items : List String} (h : ∀ s ∈ items, e.AdmitsItem s) :
    Gives Due (strings src e) ((Field.list items e).bytes ++ x :: rest) l (.ok items) rest
      (t = .line) := by
  cases items with
  | nil =>
    have hitem : Wire.item e absent = .ok none := by cases e <;> rfl
    have hdel : absent.any isDelimiter = false := by decide
    exact gives_item_last hs hx [] hitem
      (fun y hy => Bool.eq_false_iff.2 (List.any_eq_false.1 hdel y hy)) (by decide)
  | cons s ss =>
    refine gives_itemsFrom hs hx (List.cons_ne_nil s ss) [] fun s' hs' => ?_
    exact ⟨item_encode (h s' hs').ne_empty (h s' hs').ne_absent, (h s' hs').not_isDelimiter,
      (h s' hs').size⟩

/-- **A field is read back**, whatever follows its end. -/
theorem Field.ReadsBack.gives {f : Field} {c : Call} {a : Answer} (h : f.ReadsBack c a)
    (hs : src.Supplies Due) (hx : terminator? false x = some t) :
    Gives Due (c.step src) (f.bytes ++ x :: rest) l (.ok a) rest (t = .line) := by
  cases h with
  | @number n hn =>
    have hread : Gives Due (Reading.number src) (digits n ++ x :: rest) l (.ok n) rest _ :=
      gives_parsed_as hs hx (number_digits hn) (contained_digits n)
        ((length_digits hn).trans (by decide))
    exact hread.bind (gives_pure _ _ _)
  | missing e =>
    have hread : Gives Due (Reading.string src e) (absent ++ x :: rest) l (.ok none) rest _ :=
      gives_parsed_as hs hx (if_pos rfl) ⟨by decide, by decide⟩ (by decide)
    exact hread.bind (gives_pure _ _ _)
  | text hadmits => exact (gives_string hs hx hadmits).bind (gives_pure _ _ _)
  | list hadmits => exact (gives_strings hs hx hadmits).bind (gives_pure _ _ _)
  | empty e =>
    have hadmits : e.Admits "" := by cases e <;> decide
    have hnil : e.encode "" = [] := by cases e <;> rfl
    have hread : Gives Due (Reading.string src e) (e.encode "" ++ x :: rest) l (.ok (some "")) rest
        (t = .line) := gives_string hs hx hadmits
    rw [hnil] at hread
    exact hread.bind (gives_pure _ _ _)

end Wire

namespace Reading.Call

variable {σ : Type} {src : Source σ} {Due : Bytes → σ → Prop} {rest : Bytes} {l : Bool}

/-! ## Lines -/

theorem run_cons {c : Call} {cs : List Call} {x : Except ProtocolError Answer}
    {xs : List (Except ProtocolError Answer)} {r r₁ r₂ : Reader σ} (h : c.step src r = (x, r₁))
    (hs : run src cs r₁ = (xs, r₂)) : run src (c :: cs) r = (x :: xs, r₂) := by
  rw [run_cons_eq, h, hs]

/-- **The fields of a line are read one after the other**, and what follows the line is left. -/
theorem run_fields (hs : src.Supplies Due) {f : Field} {fs : List Field} {s : Call × Answer}
    {ss : List (Call × Answer)} {r : Reader σ}
    (h : List.Forall₂ (fun f (s : Call × Answer) => f.ReadsBack s.1 s.2) (f :: fs) (s :: ss))
    (hr : Before Due (joinWith fieldSeparator ((f :: fs).map Field.bytes) ++ lineEnd :: rest) l r) :
    ∃ r', run src ((s :: ss).map Prod.fst ++ [.finish]) r =
        ((s :: ss).map (fun s => .ok s.2) ++ [.ok .done], r') ∧
      Before Due rest true r' := by
  induction fs generalizing f s ss r l with
  | nil =>
    obtain ⟨hf, hnil⟩ := List.forall₂_cons.1 h
    cases hnil
    rw [List.map_singleton, joinWith, List.flatMap_nil, List.append_nil] at hr
    obtain ⟨r₁, hr₁, hb₁⟩ := hf.gives hs (t := .line) rfl r hr
    have hfinish : Gives Due (step src .finish) rest true (.ok .done) rest true :=
      (gives_finish_done src rest).bind (gives_pure _ _ _)
    obtain ⟨r₂, hr₂, hb₂⟩ := hfinish r₁ hb₁
    exact ⟨r₂, run_cons hr₁ (run_cons hr₂ rfl), hb₂⟩
  | cons f' fs ih =>
    obtain ⟨hf, htail⟩ := List.forall₂_cons.1 h
    cases htail with
    | @cons _ s' _ ss hf' htail =>
      have hjoin : joinWith fieldSeparator ((f :: f' :: fs).map Field.bytes) ++ lineEnd :: rest =
          f.bytes ++ fieldSeparator ::
            (joinWith fieldSeparator ((f' :: fs).map Field.bytes) ++ lineEnd :: rest) := by
        simp [joinWith]
      rw [hjoin] at hr
      obtain ⟨r₁, hr₁, hb₁⟩ := hf.gives hs (t := .field) rfl r hr
      obtain ⟨r₂, hr₂, hb₂⟩ := ih (.cons hf' htail) hb₁
      exact ⟨r₂, run_cons hr₁ hr₂, hb₂⟩

/-- **The line of a request is read back**, in whatever pieces it arrives: the number of the
operation, then what each field was written from; and what follows the line is left. -/
theorem run_line (limit : Option Duration) (op : Opcode) {fields : List Field}
    {steps : List (Call × Answer)} {r : Reader (List Arrival)}
    (h : List.Forall₂ (fun f (s : Call × Answer) => f.ReadsBack s.1 s.2) fields steps)
    (hplain : Arrival.Plain r.stream) (hroom : 0 < r.buffer.capacity)
    (hr : r.leftover = Request.line ⟨op, fields⟩ ++ rest) :
    (run (Arrival.source limit) (.number :: steps.map Prod.fst ++ [.finish]) r).1 =
        .ok (.number op.code) :: steps.map (fun s => .ok s.2) ++ [.ok .done] ∧
      (run (Arrival.source limit) (.number :: steps.map Prod.fst ++ [.finish]) r).2.leftover =
        rest := by
  have hall : List.Forall₂ (fun f (s : Call × Answer) => f.ReadsBack s.1 s.2)
      (.number op.code :: fields) ((.number, .number op.code) :: steps) :=
    .cons (.number op.code_le) h
  rw [Request.line_eq, List.append_assoc] at hr
  have hbefore : Before (fun b as => Arrival.joined as = b ∧ Arrival.Plain as)
      (joinWith fieldSeparator ((Field.number op.code :: fields).map Field.bytes) ++
        lineEnd :: rest) r.atLineEnd r := ⟨hroom, rfl, _, hr.symm, rfl, hplain⟩
  obtain ⟨r', hrun, hbefore⟩ := run_fields (Arrival.supplies limit) hall hbefore
  obtain ⟨-, -, b, hb, rfl, -⟩ := hbefore
  rw [List.map_cons, List.map_cons] at hrun
  rw [hrun]
  exact ⟨rfl, hb.symm⟩

/-- A line that arrives in four pieces, cut within a character and within an item, with the start
of the next line behind it. -/
theorem run_line_set :
    let fields : List Field := [.text (some "ké") .raw, .list ["a", "(B)"] .base64, .number 60,
      .list ["b", "c"] .raw, .text none .base64, .list [] .raw, .text (some "") .raw, .empty]
    let steps : List (Call × Answer) := [(.string .raw, .string (some "ké")),
      (.strings .base64, .strings ["a", "(B)"]), (.number, .number 60),
      (.strings .raw, .strings ["b", "c"]), (.string .base64, .string none),
      (.strings .raw, .strings []), (.string .raw, .string (some "")),
      (.string .base64, .string (some ""))]
    let pieces : List Bytes := [Bytes.ofString "1,k" ++ [195], [169] ++ Bytes.ofString ",YQ==:KE",
      Bytes.ofString "Ip,60,b:c,(B),(", Bytes.ofString "B),,\n2,a"]
    let r := Reader.start (pieces.map .bytes) (.ofCapacity 5)
    r.leftover = Request.line ⟨.set, fields⟩ ++ Bytes.ofString "2,a" ∧
      (run (Arrival.source none) (.number :: steps.map Prod.fst ++ [.finish]) r).1 =
        .ok (.number 1) :: steps.map (fun s => .ok s.2) ++ [.ok .done] ∧
      (run (Arrival.source none) (.number :: steps.map Prod.fst ++ [.finish]) r).2.leftover =
        Bytes.ofString "2,a" := by
  intro fields steps pieces r
  have hread : List.Forall₂ (fun f (s : Call × Answer) => f.ReadsBack s.1 s.2) fields steps :=
    .cons (.text (by decide)) <| .cons (.list (by decide)) <| .cons (.number (by decide)) <|
      .cons (.list (by decide)) <| .cons (.missing _) <| .cons (.list nofun) <|
      .cons (.text (by decide)) <| .cons (.empty _) .nil
  have hr : r.leftover = Request.line ⟨.set, fields⟩ ++ Bytes.ofString "2,a" := by decide +kernel
  exact ⟨hr, run_line none .set hread (Arrival.plain_map_bytes (by decide)) (by decide) hr⟩

end Reading.Call

end TagStore
