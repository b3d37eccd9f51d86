import Mathlib.Data.List.ReduceOption
import TagStore.Proofs.Client.ReplyEnd
import TagStore.Proofs.Client.RequestLine
import TagStore.Proofs.Wire.Supply

/-!
# What a client makes of the lines of a reply

The lines of a reply start alike, with the number of the operation and a status
(`Replying.opening`). A reply of one line is read as what follows them tells, be it what the
operation brings (`Replying.gives_single`) or a complaint (`Replying.gives_complaint`), and a reply
of several lines as what its lines bring, one after the other (`Replying.gives_several`).
-/

namespace TagStore.Replying

open Wire Reader

variable {σ α : Type} {src : Source σ} {Due : Bytes → σ → Prop} {op : Opcode}
  {b b₁ rest : Bytes} {l l₁ : Bool}

/-- How a line of a reply starts. -/
def opening (op : Opcode) (status : Bytes) : Bytes :=
  digits op.replyCode ++ fieldSeparator :: (status ++ [fieldSeparator])

theorem opening_append (op : Opcode) (status tail : Bytes) :
    opening op status ++ tail =
      digits op.replyCode ++ fieldSeparator :: (status ++ fieldSeparator :: tail) := by
  simp [opening]

theorem gives_lift {m : Reading σ α} {a : α} (h : Gives Due m b l (.ok a) b₁ l₁) :
    Gives Due (lift m) b l (.ok a) b₁ l₁ := by
  intro r hr
  obtain ⟨r', hrun, hb⟩ := h r hr
  exact ⟨r', by rw [lift, hrun], hb⟩

theorem gives_ofExcept (x : Except ClientError α) (b : Bytes) (l : Bool) :
    Gives Due (ofExcept x) b l x b l := by
  intro r hr
  cases x <;> exact ⟨r, rfl, hr⟩

theorem length_digits_replyCode (op : Opcode) : (digits op.replyCode).length ≤ maxFieldSize := by
  cases op <;> decide

theorem number_replyCode (op : Opcode) :
    Wire.number (digits op.replyCode) = .ok op.replyCode := by
  cases op <;> decide

theorem digits_replyCode_ne (op : Opcode) : digits op.replyCode ≠ endMarker := by
  cases op <;> decide

theorem checkOpcode_replyCode (op : Opcode) : checkOpcode op op.replyCode = .ok () := if_pos rfl

theorem gives_expectOpcode (hs : src.Supplies Due) :
    Gives Due (Reading.expectOpcode src op) (digits op.replyCode ++ fieldSeparator :: rest) l
      (.ok ()) rest false := by
  have hd := contained_digits op.replyCode
  have hnum : Gives Due (Reading.number src) (digits op.replyCode ++ fieldSeparator :: rest) l
      (Wire.number (digits op.replyCode)) rest false :=
    Reading.gives_parsed hs _ hd.1 hd.2 (length_digits_replyCode op)
  rw [number_replyCode] at hnum
  refine hnum.bind ?_
  rw [checkOpcode_replyCode]
  exact Reading.gives_ofExcept _ _ _

/-- A status before a separator. -/
theorem gives_status (hs : src.Supplies Due) {field : Bytes} {s : Status}
    (h : Wire.status field = .ok s) (hc : Contained field) (hlen : field.length ≤ maxFieldSize) :
    Gives Due (Reading.status src) (field ++ fieldSeparator :: rest) l (.ok s) rest false := by
  rw [← h]
  exact Reading.gives_parsed hs _ hc.1 hc.2 hlen

theorem gives_statusOk (hs : src.Supplies Due) :
    Gives Due (Reading.status src) (statusOk ++ fieldSeparator :: rest) l (.ok .ok) rest false :=
  gives_status hs rfl ⟨by decide, by decide⟩ (by decide)

theorem gives_statusFailed (hs : src.Supplies Due) :
    Gives Due (Reading.status src) (statusFailed ++ fieldSeparator :: rest) l (.ok .failed) rest
      false :=
  gives_status hs rfl ⟨by decide, by decide⟩ (by decide)

/-- A complaint that ends its line. -/
structure Plaintext (text : String) : Prop where
  contained : Contained (Bytes.ofString text)
  short : (Bytes.ofString text).length ≤ maxFieldSize
  present : Bytes.ofString text ≠ absent

theorem plaintext_empty : Plaintext "" := ⟨⟨by decide, by decide⟩, by decide, by decide⟩

theorem gives_text (hs : src.Supplies Due) {text : String} (h : Plaintext text) :
    Gives Due (Reading.string src .raw) (Bytes.ofString text ++ lineEnd :: rest) l
      (.ok (some text)) rest true := by
  have hraw : Wire.string .raw (Bytes.ofString text) = .ok (some text) := by
    have hdecode : Encoding.raw.decode (Bytes.ofString text) = .ok text :=
      Encoding.raw.decode_encode text
    rw [Wire.string, if_neg h.present, hdecode]
    rfl
  rw [← hraw]
  exact Reading.gives_parsed_last hs _ h.contained.1 h.contained.2 h.short

/-! ## Replies of one line -/

variable {complaint : String → Except ClientError α}

/-- What the operation brings. -/
theorem gives_single (hs : src.Supplies Due) {success : Reading σ α} {a : α} {tail : Bytes}
    (hsuccess : Gives Due success tail false (.ok a) b₁ l₁)
    (hend : Gives Due (Reading.finish src) b₁ l₁ (.ok ()) rest true) :
    Gives Due (single src op success complaint) (opening op statusOk ++ tail) l (.ok a) rest
      true := by
  rw [opening_append]
  refine (gives_lift (gives_expectOpcode hs)).bind ?_
  refine (gives_lift (gives_statusOk hs)).bind ?_
  refine (gives_lift hsuccess).bind ?_
  exact (gives_lift hend).bind (gives_pure a _ _)

/-- What a complaint means. -/
theorem gives_complaint (hs : src.Supplies Due) {success : Reading σ α} {text : String}
    (htext : Plaintext text) :
    Gives Due (single src op success complaint)
      (opening op statusFailed ++ (Bytes.ofString text ++ lineEnd :: rest)) l (complaint text) rest
      true := by
  rw [opening_append]
  refine (gives_lift (gives_expectOpcode hs)).bind ?_
  refine (gives_lift (gives_statusFailed hs)).bind ?_
  have hbody : Gives Due (body src success complaint .failed)
      (Bytes.ofString text ++ lineEnd :: rest) false (complaint text) rest true :=
    (gives_lift (gives_text hs htext)).bind (gives_ofExcept _ _ _)
  cases hy : complaint text with
  | error e => exact (hy ▸ hbody).bind_error _
  | ok a =>
    refine (hy ▸ hbody).bind ?_
    exact (gives_lift (Reading.gives_finish_done src _)).bind (gives_pure a _ _)

/-! ## Replies of several lines -/

variable {success : Reading σ (Option α)}

theorem gives_block (hs : src.Supplies Due) :
    Gives Due (Reading.block src op) (digits op.replyCode ++ fieldSeparator :: rest) l
      (.ok true) rest false := by
  have hd := contained_digits op.replyCode
  have h : Gives Due (Reading.block src op) (digits op.replyCode ++ fieldSeparator :: rest) l
      (if digits op.replyCode = endMarker then .ok false
      else (Wire.number (digits op.replyCode)).bind fun n =>
        (Wire.checkOpcode op n).map fun _ => true) rest false :=
    Reading.gives_parsed hs _ hd.1 hd.2 (length_digits_replyCode op)
  rw [if_neg (digits_replyCode_ne op), number_replyCode, Except.bind, checkOpcode_replyCode] at h
  exact h

/-- A line that brings something. -/
theorem gives_line (hs : src.Supplies Due) {a : Option α} {tail : Bytes}
    (hsuccess : Gives Due success tail false (.ok a) b₁ l₁)
    (hend : Gives Due (Reading.finish src) b₁ l₁ (.ok ()) rest true) :
    Gives Due (line src op success) (opening op statusOk ++ tail) l (.ok (some a)) rest true := by
  rw [opening_append]
  have hrest : Gives Due (lineRest src success) (statusOk ++ fieldSeparator :: tail) false (.ok a)
      rest true :=
    (gives_statusOk hs).bind (hsuccess.bind (hend.bind (gives_pure _ _ _)))
  exact (gives_block hs).bind (hrest.bind (gives_pure _ _ _))

/-- A line that brings nothing. -/
theorem gives_line_failed (hs : src.Supplies Due) :
    Gives Due (line src op success) (opening op statusFailed ++ lineEnd :: rest) l
      (.ok (some none)) rest true := by
  rw [opening_append]
  have hbody : Gives Due (lineBody src success .failed)
      (Bytes.ofString "" ++ lineEnd :: rest) false (.ok none) rest true :=
    (gives_text hs plaintext_empty).bind (gives_pure _ _ _)
  have hrest : Gives Due (lineRest src success)
      (statusFailed ++ fieldSeparator :: (Bytes.ofString "" ++ lineEnd :: rest)) false (.ok none)
      rest true :=
    (gives_statusFailed hs).bind
      (hbody.bind ((Reading.gives_finish_done src _).bind (gives_pure _ _ _)))
  exact (gives_block hs).bind (hrest.bind (gives_pure _ _ _))

/-- The closing line. -/
theorem gives_line_end (hs : src.Supplies Due) :
    Gives Due (line src op success) (endLine ++ rest) l (.ok none) rest true := by
  have hblock : Gives Due (Reading.block src op) (endLine ++ rest) l (.ok false) rest true := by
    rw [endLine, List.append_assoc]
    exact Reading.gives_parsed_last hs _ (by decide) (by decide) (by decide)
  exact hblock.bind (gives_pure _ _ _)

/-- **A reply of several lines brings what its lines bring.** -/
theorem gives_several (hs : src.Supplies Due) {hshrinks : Reading.Shrinks src success}
    {ls : List Bytes} {as : List (Option α)}
    (h : List.Forall₂ (fun b a => ∀ rest l,
      Gives Due (line src op success) (b ++ rest) l (.ok (some a)) rest true) ls as) :
    Gives Due (several src op success hshrinks) (ls.flatten ++ endLine) l (.ok as.reduceOption)
      [] true := by
  have hfrom : ∀ acc, Gives Due (linesFrom src op success hshrinks acc) (ls.flatten ++ endLine) l
      (.ok (acc.reverse ++ as.reduceOption)) [] true := by
    induction h generalizing l with
    | nil =>
      intro acc
      rw [linesFrom_eq, List.flatten_nil, List.nil_append]
      have hend : Gives Due (line src op success) (endLine ++ []) l (.ok none) [] true :=
        gives_line_end hs
      rw [List.append_nil] at hend
      have hpure : Gives Due (pure acc.reverse : Reading σ (List α)) [] true (.ok acc.reverse) []
          true := gives_pure _ _ _
      exact hend.bind (by simpa using hpure)
    | @cons b a ls as hb _ ih =>
      intro acc
      rw [linesFrom_eq, List.flatten_cons, List.append_assoc]
      refine (hb _ _).bind ?_
      cases a with
      | none => simpa using ih acc
      | some a => simpa using ih (a :: acc)
  exact gives_lift (hfrom [])

end TagStore.Replying
