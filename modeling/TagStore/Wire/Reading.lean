import TagStore.Payload
import TagStore.Wire.Opcode
import TagStore.Wire.Reader

/-!
# Reading replies

What the fields of a reply mean, and the steps that read them. A step that fails leaves the reader
where the failure was found, and further steps go on from there. No step takes bytes from anywhere
but the stream (`Shrinks`), and a field that is read takes some (`load_parsed`), so that a reply of
many lines comes to an end.
-/

namespace TagStore

open Wire

/-- A step of reading: its result, and the reader it leaves, also where it fails. -/
abbrev Reading (σ : Type) (α : Type) := ExceptT ProtocolError (StateM (Reader σ)) α

namespace Wire

/-- The number that decimal digits continue from `n`; `field` is shown in a complaint. -/
def numberFrom (field : Bytes) (n : Nat) : Bytes → Except ProtocolError Nat
  | [] => .ok n
  | b :: r =>
    if 48 ≤ b ∧ b ≤ 57 then
      let n := n * 10 + (b.toNat - 48)
      if n ≤ Text.maxU64 then numberFrom field n r else .error (.format "number overflows u64")
    else
      .error (.format
        s!"expected a number, found byte 0x{Bytes.toHex [b]} in {Text.quote (Utf8.lossy field)}")

/-- The number that a field of decimal digits writes; a field without digits writes 0. -/
def number (field : Bytes) : Except ProtocolError Nat := numberFrom field 0 field

/-- The text that bytes write. -/
def utf8 (b : Bytes) : Except ProtocolError String :=
  match Utf8.decode? b with
  | some s => .ok s
  | none => .error (.utf8 (Utf8.fault b))

/-- The text that a field writes. -/
def Encoding.decode : Encoding → Bytes → Except ProtocolError String
  | raw, b => utf8 b
  | base64, b =>
    match Base64.decode? b with
    | some b => utf8 b
    | none => .error .base64

/-- Whether an operation succeeded. -/
inductive Status
  | ok
  | failed
deriving Repr, DecidableEq

/-- The status that a field reports. -/
def status (field : Bytes) : Except ProtocolError Status :=
  if field = statusOk then .ok .ok
  else if field = statusFailed then .ok .failed
  else .error (.unexpectedStatus (Utf8.lossy field))

/-- Checks the number that opens a reply. -/
def checkOpcode (op : Opcode) (n : Nat) : Except ProtocolError Unit :=
  if n = op.replyCode then .ok () else .error (.unexpectedOpcode op.replyCode n)

/-- The value that a field holds. An empty field holds the empty text. -/
def value (codec : PayloadCodec) (field : Bytes) : Except ProtocolError (Option Value) :=
  if field = [] then .ok (some (.text ""))
  else if field = absent then .ok none
  else
    match Base64.decode? field with
    | some b => codec.decode b
    | none => .error .base64

/-- The text of a field that may be absent. -/
def string (e : Encoding) (field : Bytes) : Except ProtocolError (Option String) :=
  if field = absent then .ok none else (e.decode field).map some

/-- The text of an item; empty and absent items are passed over. -/
def item (e : Encoding) (field : Bytes) : Except ProtocolError (Option String) :=
  if field = [] then .ok none else string e field

end Wire

namespace Reading

variable {σ : Type}

/-- The outcome of a decision about bytes already read. -/
def ofExcept {α : Type} : Except ProtocolError α → Reading σ α
  | .ok a => pure a
  | .error e => throw e

/-- The next field, and what ended it; a list is split into its items. -/
def field (src : Source σ) (split : Bool) : Reading σ (Bytes × Terminator) :=
  Reader.fieldFrom src split [] 0

/-- The next field, read by a rule. -/
def parsed {α : Type} (src : Source σ) (parse : Bytes → Except ProtocolError α) :
    Reading σ α := do
  let (f, _) ← field src false
  ofExcept (parse f)

/-- The next field as a number. -/
def number (src : Source σ) : Reading σ Nat := parsed src Wire.number

/-- Reads the number that opens the reply to an operation. -/
def expectOpcode (src : Source σ) (op : Opcode) : Reading σ Unit := do
  let n ← number src
  ofExcept (Wire.checkOpcode op n)

/-- Whether one more line follows in a reply of several lines, and not its closing line. -/
def block (src : Source σ) (op : Opcode) : Reading σ Bool :=
  parsed src fun f =>
    if f = endMarker then .ok false
    else (Wire.number f).bind fun n => (Wire.checkOpcode op n).map fun _ => true

/-- The next field as a status. -/
def status (src : Source σ) : Reading σ Status := parsed src Wire.status

/-- The next field as a text that may be absent. -/
def string (src : Source σ) (e : Encoding) : Reading σ (Option String) :=
  parsed src (Wire.string e)

/-- The next field as a value. -/
def value (src : Source σ) (codec : PayloadCodec) : Reading σ (Option Value) :=
  parsed src (Wire.value codec)

/-- The items of a list up to the end of their field; `acc` holds those before, the last first. -/
def itemsFrom (src : Source σ) (e : Encoding) (acc : List String) (r : Reader σ) :
    Except ProtocolError (List String) × Reader σ :=
  match _h : Reader.fieldFrom src true [] 0 r with
  | (.error e, r') => (.error e, r')
  | (.ok (f, t), r') =>
    match Wire.item e f with
    | .error e => (.error e, r')
    | .ok s =>
      let acc := s.toList ++ acc
      if t = .item then itemsFrom src e acc r' else (.ok acc.reverse, r')
termination_by r.load src
decreasing_by
  have := (Reader.load_fieldFrom src true [] 0 r).2 (f, t) (by rw [_h])
  rw [_h] at this
  exact this

/-- The next field as a list of texts; empty and absent items are passed over. -/
def strings (src : Source σ) (e : Encoding) : Reading σ (List String) := itemsFrom src e []

/-- Passes over what is left of the line. -/
def finish (src : Source σ) : Reading σ Unit := Reader.skipLine src

/-- Whether a step of reading takes no bytes from elsewhere. -/
def Shrinks {α : Type} (src : Source σ) (m : Reading σ α) : Prop :=
  ∀ r, (m r).2.load src ≤ r.load src

theorem bind_run {α β : Type} (m : Reading σ α) (f : α → Reading σ β) (r : Reader σ) :
    (m >>= f) r =
      match m r with
      | (.ok a, r') => f a r'
      | (.error e, r') => (.error e, r') := by
  change (match m r with | (x, r') => ExceptT.bindCont f x r') = _
  cases h : m r with
  | mk x r' => cases x <;> rfl

theorem shrinks_pure {α : Type} (src : Source σ) (a : α) :
    Shrinks src (pure a : Reading σ α) := fun _ => Nat.le_refl _

theorem Shrinks.bind {α β : Type} {src : Source σ} {m : Reading σ α} {f : α → Reading σ β}
    (hm : Shrinks src m) (hf : ∀ a, Shrinks src (f a)) : Shrinks src (m >>= f) := by
  intro r
  rw [bind_run]
  have := hm r
  split <;> rename_i h <;> rw [h] at this
  · exact Nat.le_trans (hf _ _) this
  · exact this

theorem shrinks_ofExcept {α : Type} (src : Source σ) (x : Except ProtocolError α) :
    Shrinks src (ofExcept x) := by
  intro r
  cases x <;> exact Nat.le_refl _

theorem shrinks_field (src : Source σ) (split : Bool) : Shrinks src (field src split) :=
  fun r => (Reader.load_fieldFrom src split [] 0 r).1

theorem shrinks_parsed {α : Type} (src : Source σ) (parse : Bytes → Except ProtocolError α) :
    Shrinks src (parsed src parse) :=
  (shrinks_field src false).bind fun _ => shrinks_ofExcept src _

theorem shrinks_finish (src : Source σ) : Shrinks src (finish src) := Reader.load_skipLine src

/-- A field that is read in full takes some bytes. -/
theorem load_parsed {α : Type} (src : Source σ) (parse : Bytes → Except ProtocolError α)
    {r r' : Reader σ} {a : α} (h : parsed src parse r = (.ok a, r')) :
    r'.load src < r.load src := by
  have hf := (Reader.load_fieldFrom src false [] 0 r).2
  rw [parsed, bind_run, field] at h
  cases hx : Reader.fieldFrom src false [] 0 r with
  | mk x r₁ =>
    rw [hx] at h hf
    cases x with
    | error e => cases h
    | ok f =>
      have := hf f rfl
      obtain ⟨f, t⟩ := f
      cases hp : parse f with
      | error e =>
        change ofExcept (parse f) r₁ = _ at h
        rw [hp] at h
        cases h
      | ok b =>
        change ofExcept (parse f) r₁ = _ at h
        rw [hp] at h
        cases h
        exact this

end Reading

end TagStore
