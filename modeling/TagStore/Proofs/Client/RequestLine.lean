import TagStore.Proofs.Base64
import TagStore.Proofs.Except
import TagStore.Proofs.Text.Decimal
import TagStore.Proofs.Wire.Line
import TagStore.Proofs.Client.Operation
import Mathlib.Data.List.Forall2

/-!
# The lines of requests

A request says a number of things, one in each field (`Operation.entries`): which operation it is,
then keys, tags, values and numbers. What is put in a field contains neither a separator nor a line
end (`Entry.Fits`): Base64 and digits never do, and keys and versions that travel as they are have
been checked for it. So the request is one line (`Operation.isLine_line`), and cutting it at the
separators gives what was put in, field by field (`Operation.entries_of_line`).
-/

namespace TagStore

open Wire

/-! ## Bytes that stay within a field -/

/-- The bytes of characters below 128. -/
theorem Bytes.ofString_ofList {cs : List Char} (h : ∀ c ∈ cs, c.toNat < 128) :
    Bytes.ofString (String.ofList cs) = cs.map Bytes.ofChar := by
  change cs.utf8Encode.data.toList = _
  induction cs with
  | nil => rfl
  | cons c cs ih =>
    obtain ⟨hc, hcs⟩ := List.forall_mem_cons.1 h
    have hsize : c.utf8Size = 1 :=
      Char.utf8Size_eq_one_iff.2 (UInt32.le_iff_toNat_le.2 (Nat.le_of_lt_succ hc))
    rw [List.map_cons, ← ih hcs, List.utf8Encode_cons, List.utf8Encode_singleton,
      String.utf8EncodeChar_eq_singleton hsize]
    simp only [ByteArray.data_append, List.data_toByteArray, Array.toList_append]
    rfl

namespace Wire

variable {b : Bytes} {ps : List Bytes} {x sep : UInt8}

/-- Whether bytes stay within a field. -/
def Contained (b : Bytes) : Prop := fieldSeparator ∉ b ∧ lineEnd ∉ b

/-- The bytes of a number are the digits from 0 to 9. -/
theorem mem_digits {n : Nat} (h : x ∈ digits n) : 48 ≤ x.toNat ∧ x.toNat ≤ 57 := by
  obtain ⟨c, hc, rfl⟩ := List.mem_map.1 h
  have hd := Text.toNat_of_mem_toDigits hc
  rw [Bytes.ofChar, UInt8.toNat_ofNat']
  omega

/-- The bytes of a number are those of its decimal form. -/
theorem digits_eq (n : Nat) : digits n = Bytes.ofString (toString n) := by
  rw [Nat.toString_eq_ofList_toDigits, Bytes.ofString_ofList, digits]
  intro c hc
  have hd := Text.toNat_of_mem_toDigits hc
  omega

theorem contained_digits (n : Nat) : Contained (digits n) :=
  ⟨fun h => absurd (mem_digits h) (by decide), fun h => absurd (mem_digits h) (by decide)⟩

/-- A number of 64 bits has at most twenty digits. -/
theorem length_digits {n : Nat} (h : n ≤ Text.maxU64) : (digits n).length ≤ 20 := by
  rw [digits, List.length_map]
  exact (Nat.length_toDigits_le_iff (by decide) (by decide)).2 (Nat.lt_of_le_of_lt h (by decide))

/-- Digits are read from the left, and what they write never passes what they write in all. -/
theorem numberFrom_ofChar (field : Bytes) {cs : List Char} {n : Nat}
    (hcs : ∀ c ∈ cs, 48 ≤ c.toNat ∧ c.toNat ≤ 57) (h : Nat.ofDigitChars 10 cs n ≤ Text.maxU64) :
    numberFrom field n (cs.map Bytes.ofChar) = .ok (Nat.ofDigitChars 10 cs n) := by
  induction cs generalizing n with
  | nil => rfl
  | cons c cs ih =>
    obtain ⟨hc, hcs⟩ := List.forall_mem_cons.1 hcs
    have hbyte : (Bytes.ofChar c).toNat = c.toNat := by
      rw [Bytes.ofChar, UInt8.toNat_ofNat']
      omega
    have hdigit : 48 ≤ Bytes.ofChar c ∧ Bytes.ofChar c ≤ 57 := by
      rw [UInt8.le_iff_toNat_le, UInt8.le_iff_toNat_le, hbyte]
      exact hc
    have hnext : n * 10 + ((Bytes.ofChar c).toNat - 48) = 10 * n + (c.toNat - '0'.toNat) := by
      rw [hbyte, Nat.mul_comm]
      rfl
    rw [Nat.ofDigitChars_cons] at h ⊢
    rw [List.map_cons, numberFrom, if_pos hdigit]
    simp only [hnext]
    rw [if_pos (Nat.le_trans (Text.le_ofDigitChars cs _) h)]
    exact ih hcs h

/-- Every number of 64 bits reads back. -/
theorem number_digits {n : Nat} (h : n ≤ Text.maxU64) : number (digits n) = .ok n := by
  have hn : Nat.ofDigitChars 10 (Nat.toDigits 10 n) 0 = n :=
    Nat.ofDigitChars_toDigits (by decide) (by decide)
  have hread := numberFrom_ofChar (digits n) (fun _ hc => Text.toNat_of_mem_toDigits hc) (hn ▸ h)
  rwa [hn] at hread

theorem contained_base64 (b : Bytes) : Contained (Base64.encode b) :=
  ⟨Base64.delimiter_notMem_encode rfl b, Base64.delimiter_notMem_encode rfl b⟩

theorem contained_of_any (h : b.any isDelimiter = false) : Contained b :=
  ⟨fun hm => List.any_eq_false.1 h _ hm rfl, fun hm => List.any_eq_false.1 h _ hm rfl⟩

/-- Every text reads back. -/
theorem Encoding.decode_encode (e : Encoding) (s : String) : e.decode (e.encode s) = .ok s := by
  cases e with
  | raw => rw [encode, decode, utf8, Utf8.decode?_ofString]
  | base64 =>
    rw [encode, decode, Base64.decode?_encode]
    simp only [utf8, Utf8.decode?_ofString]

/-- Texts are told by their bytes. -/
theorem Encoding.encode_inj {e : Encoding} {s t : String} : e.encode s = e.encode t ↔ s = t := by
  refine ⟨fun h => ?_, congrArg _⟩
  have hs := e.decode_encode s
  rw [h, e.decode_encode t] at hs
  exact (Except.ok.inj hs).symm

/-- A text with characters has some bytes. -/
theorem Encoding.encode_ne_nil {e : Encoding} {s : String} (h : s ≠ "") : e.encode s ≠ [] := by
  intro hnil
  have hempty : e.encode "" = [] := by cases e <;> rfl
  exact h (encode_inj.1 (hnil.trans hempty.symm))

/-- A text that is not taken for an absent one is read back from its field. -/
theorem string_encode {e : Encoding} {s : String} (h : e.encode s ≠ absent) :
    string e (e.encode s) = .ok (some s) := by
  rw [string, if_neg h, Encoding.decode_encode]
  rfl

/-- An item with characters is read back from a list. -/
theorem item_encode {e : Encoding} {s : String} (hne : s ≠ "") (h : e.encode s ≠ absent) :
    item e (e.encode s) = .ok (some s) := by
  rw [item, if_neg (Encoding.encode_ne_nil hne), string_encode h]

/-! ## Parts with a byte between them -/

theorem joinWith_cons_cons (sep : UInt8) (p q : Bytes) (ps : List Bytes) :
    joinWith sep (p :: q :: ps) = p ++ sep :: joinWith sep (q :: ps) := rfl

theorem joinWith_eq (sep : UInt8) (ps : List Bytes) : joinWith sep ps = [sep].intercalate ps := by
  induction ps with
  | nil => rfl
  | cons p ps ih =>
    cases ps with
    | nil => rw [List.intercalate_singleton, joinWith, List.flatMap_nil, List.append_nil]
    | cons q ps =>
      rw [joinWith_cons_cons, List.intercalate_cons_cons, ih, List.append_assoc,
        List.singleton_append]

/-- Parts are found again by the byte between them, if none of them has it. -/
theorem splitOn_joinWith (h : ∀ p ∈ ps, sep ∉ p) (hne : ps ≠ []) :
    (joinWith sep ps).splitOn sep = ps := by
  rw [joinWith_eq, List.splitOn_intercalate sep h hne]

theorem mem_joinWith (h : x ∈ joinWith sep ps) : x = sep ∨ ∃ p ∈ ps, x ∈ p := by
  cases ps with
  | nil => cases h
  | cons p ps =>
    rcases List.mem_append.1 h with hm | hm
    · exact .inr ⟨p, List.mem_cons_self, hm⟩
    · obtain ⟨q, hq, hm⟩ := List.mem_flatMap.1 hm
      rcases List.mem_cons.1 hm with rfl | hm
      · exact .inl rfl
      · exact .inr ⟨q, List.mem_cons_of_mem _ hq, hm⟩

end Wire

namespace Request

/-- What stands between the separators of a request's line. -/
def pieces (r : Request) : List Bytes := digits r.opcode.code :: r.fields.map Field.bytes

theorem line_eq (r : Request) : r.line = joinWith fieldSeparator r.pieces ++ [lineEnd] := by
  rw [line, pieces, joinWith, List.flatMap_map]

/-- Pieces that stay within their fields make one line. -/
theorem lineEnd_notMem_body {r : Request} (h : ∀ b ∈ r.pieces, Contained b) :
    lineEnd ∉ joinWith fieldSeparator r.pieces := fun hm => by
  rcases mem_joinWith hm with hm | ⟨b, hb, hm⟩
  · exact absurd hm (by decide)
  · exact (h b hb).2 hm

end Request

/-! ## Keys that have been checked -/

namespace Profile

variable {p : Profile} {key : String}

theorem checkKey_eq_ok (h : p.checkKey key = .ok ()) :
    key ≠ "" ∧ (p.keys = .raw →
      (Bytes.ofString key).any isDelimiter = false ∧ Bytes.ofString key ≠ absent) := by
  rw [checkKey] at h
  split at h
  · cases h
  rename_i hne
  split at h
  · cases h
  split at h
  · cases h
  rename_i hraw
  refine ⟨hne, fun hk => ?_⟩
  simp only [hk, true_and, not_or] at hraw
  exact ⟨Bool.eq_false_iff.2 hraw.1, hraw.2⟩

/-- The bytes of a key stay within an item of a list. -/
theorem isDelimiter_encode (h : p.checkKey key = .ok ()) :
    ∀ y ∈ p.keys.encode key, isDelimiter y = false := by
  intro y hy
  cases hk : p.keys with
  | base64 =>
    rw [hk] at hy
    exact Base64.not_isDelimiter_of_mem_encode hy
  | raw =>
    rw [hk] at hy
    exact Bool.eq_false_iff.2 (List.any_eq_false.1 ((checkKey_eq_ok h).2 hk).1 y hy)

theorem encode_ne_absent (h : p.checkKey key = .ok ()) : p.keys.encode key ≠ absent := by
  cases hk : p.keys with
  | base64 => exact Base64.encode_ne_absent _
  | raw => exact ((checkKey_eq_ok h).2 hk).2

end Profile

/-! ## What requests say -/

/-- What a field of a request says. -/
inductive Entry
  | number (n : Nat)
  | key (key : String)
  | tags (tags : List String)
  | value (key : String) (value : Option Value)
  | version (token : String)
  | tag (tag : String)
  | flag (on : Bool)
  | nothing

/-- The entries of an operation, one for each field. -/
def Operation.entries {α : Type} : Operation α → List Entry
  | init => [.number 0]
  | version => [.number 999]
  | set key value options =>
    [.number 1, .key key, .tags options.tags, .number 0, .value key value,
      .number options.expireSecs, .nothing]
  | add key value options =>
    [.number 6, .key key, .tags options.tags, .number 0, .value key value,
      .number options.expireSecs, .nothing]
  | setVersioned key value token options =>
    [.number 16, .key key, .tags options.tags, .number 0, .value key value, .version token,
      .number options.expireSecs, .nothing]
  | get key => [.number 2, .key key]
  | getVersioned key => [.number 15, .key key]
  | getMulti keys => .number 22 :: keys.map .key
  | getPairsByTag tag => [.number 23, .tag tag]
  | remove key => [.number 5, .key key, .number 0]
  | getTagKeys tag includeDeleted => [.number 3, .tag tag, .flag includeDeleted]

namespace Entry

/-- Whether bytes say what an entry says. Tags are absent when there are none, and otherwise one
after the other in Base64. -/
def Says (p : Profile) : Entry → Bytes → Prop
  | .number n, b => b = Bytes.ofString (toString n)
  | .key k, b => p.keys.decode b = .ok k ∧ b ≠ absent
  | .tags ts, b =>
    (b = absent ↔ ts = []) ∧
      (ts ≠ [] → b.splitOn listSeparator = ts.map fun t => Base64.encode (Bytes.ofString t))
  | .value k v, b =>
    ∃ w payload, v = some w ∧ p.payload.encode k w = .ok payload ∧ b = Base64.encode payload
  | .version token, b => b = Bytes.ofString token
  | .tag t, b => b = Base64.encode (Bytes.ofString t)
  | .flag on, b => b = Bytes.ofString (toString on)
  | .nothing, b => b = []

/-- Whether bytes say what an entry says and stay within a field. -/
def Fits (p : Profile) (e : Entry) (b : Bytes) : Prop := e.Says p b ∧ Contained b

variable {p : Profile}

theorem fits_number (p : Profile) (n : Nat) : (number n).Fits p (Field.number n).bytes :=
  ⟨digits_eq n, contained_digits n⟩

/-- A key that has been checked. -/
theorem fits_key {key : String} (h : p.checkKey key = .ok ()) :
    (Entry.key key).Fits p (Field.text (some key) p.keys).bytes :=
  ⟨⟨Encoding.decode_encode p.keys key, Profile.encode_ne_absent h⟩,
    contained_of_any (List.any_eq_false.2 fun y hy =>
      Bool.eq_false_iff.1 (Profile.isDelimiter_encode h y hy))⟩

/-- Tags in Base64 have only its signs and separators between them. -/
theorem notMem_tags {x : UInt8} (hx : x ≠ listSeparator) (h : ∀ b, x ∉ Base64.encode b)
    (tags : List String) : x ∉ joinWith listSeparator (tags.map Encoding.base64.encode) := by
  intro hm
  rcases mem_joinWith hm with hsep | ⟨b, hb, hm⟩
  · exact hx hsep
  · obtain ⟨s, -, rfl⟩ := List.mem_map.1 hb
    exact h _ hm

theorem fits_tags (p : Profile) (tags : List String) :
    (Entry.tags tags).Fits p (Field.list tags .base64).bytes := by
  cases tags with
  | nil => exact ⟨⟨by simp [Field.bytes], fun h => absurd rfl h⟩, by decide, by decide⟩
  | cons t ts =>
    change (Entry.tags (t :: ts)).Fits p
      (joinWith listSeparator ((t :: ts).map Encoding.base64.encode))
    have hstart := notMem_tags (by decide) Base64.parenthesis_notMem_encode (t :: ts)
    have hfield : fieldSeparator ∉ _ :=
      notMem_tags (by decide) (Base64.delimiter_notMem_encode rfl) (t :: ts)
    have hline : lineEnd ∉ _ :=
      notMem_tags (by decide) (Base64.delimiter_notMem_encode rfl) (t :: ts)
    refine ⟨⟨⟨fun h => absurd (h ▸ List.mem_cons_self) hstart, nofun⟩, fun _ => ?_⟩, hfield, hline⟩
    refine splitOn_joinWith (fun b hb => ?_) (List.cons_ne_nil _ _)
    obtain ⟨s, -, rfl⟩ := List.mem_map.1 hb
    exact Base64.delimiter_notMem_encode rfl _

/-- A version that has been checked. -/
theorem fits_version {token : String} (h : Profile.checkVersion token = .ok ()) :
    (Entry.version token).Fits p (Field.text (some token) .raw).bytes := by
  rw [Profile.checkVersion] at h
  split at h
  · cases h
  · rename_i hd
    exact ⟨rfl, contained_of_any (Bool.eq_false_iff.2 (not_or.1 hd).2)⟩

theorem fits_value {key : String} {v : Value} {payload : Bytes}
    (h : p.payload.encode key v = .ok payload) :
    (Entry.value key (some v)).Fits p (Field.blob payload).bytes :=
  ⟨⟨v, payload, rfl, h, rfl⟩, contained_base64 _⟩

theorem fits_tag (p : Profile) (tag : String) :
    (Entry.tag tag).Fits p (Field.text (some tag) .base64).bytes :=
  ⟨rfl, contained_base64 _⟩

theorem fits_flag (p : Profile) (on : Bool) :
    (Entry.flag on).Fits p (Field.text (some (if on then "true" else "false")) .raw).bytes := by
  cases on <;> exact ⟨by rfl, by decide, by decide⟩

theorem fits_nothing (p : Profile) : Entry.nothing.Fits p Field.empty.bytes :=
  ⟨rfl, List.not_mem_nil, List.not_mem_nil⟩

end Entry

/-! ## Requests -/

namespace Profile

variable {p : Profile}

/-- What a request that is written after a check tells of the check. -/
theorem check_of_bind_ok {α : Type} {check : Except ClientError Unit}
    {f : Unit → Except ClientError α} {a : α} (h : (check >>= f) = .ok a) :
    check = .ok () ∧ f () = .ok a := by
  obtain ⟨u, hcheck, hf⟩ := exists_of_bind_ok h
  exact ⟨hcheck, hf⟩

theorem checkKey_of_forM {keys : List String} (h : keys.forM p.checkKey = .ok ()) :
    ∀ key ∈ keys, p.checkKey key = .ok () := by
  induction keys with
  | nil => simp
  | cons k ks ih =>
    obtain ⟨hk, hks⟩ := check_of_bind_ok h
    intro key hm
    rcases List.mem_cons.1 hm with rfl | hm
    · exact hk
    · exact ih hks key hm

theorem forM_of_forall {β ε : Type} {f : β → Except ε Unit} {bs : List β}
    (h : ∀ b ∈ bs, f b = .ok ()) : bs.forM f = .ok () := by
  induction bs with
  | nil => rfl
  | cons b bs ih =>
    obtain ⟨hb, hbs⟩ := List.forall_mem_cons.1 h
    change (f b >>= fun _ => bs.forM f) = _
    rw [hb]
    exact ih hbs

/-- The payload of a value that is encoded. -/
theorem payloadOf_eq_ok {key : String} {value : Option Value} {payload : Bytes}
    (h : p.payloadOf key value = .ok payload) :
    ∃ v, value = some v ∧ p.payload.encode key v = .ok payload := by
  cases value with
  | none => cases h
  | some v =>
    rw [payloadOf] at h
    cases he : p.payload.encode key v with
    | error e => rw [he] at h; cases h
    | ok b =>
      rw [he] at h
      cases h
      exact ⟨v, rfl, he⟩

/-- The request of a write that passes its checks. -/
theorem write_eq_ok {op : Opcode} {key : String} {value : Option Value} {version : Option String}
    {options : StoreOptions} {r : Request} (h : p.write op key value version options = .ok r) :
    ∃ v payload, value = some v ∧ p.checkKey key = .ok () ∧
      p.payload.encode key v = .ok payload ∧
      r = ⟨op, [.text (some key) p.keys, .list options.tags .base64, .number 0, .blob payload] ++
        (version.map fun v => .text (some v) .raw).toList ++
          [.number options.expireSecs, .empty]⟩ := by
  obtain ⟨hk, h⟩ := check_of_bind_ok h
  obtain ⟨-, h⟩ := check_of_bind_ok h
  cases hp : p.payloadOf key value with
  | error e => rw [hp] at h; cases h
  | ok payload =>
    rw [hp] at h
    obtain ⟨-, h⟩ := check_of_bind_ok h
    cases h
    obtain ⟨v, rfl, he⟩ := payloadOf_eq_ok hp
    exact ⟨v, payload, rfl, hk, he, rfl⟩

/-- **A write whose parts pass their checks is written, unless the value is too long.** -/
theorem write_of_checks {op : Opcode} {key : String} {v : Value} {version : Option String}
    {options : StoreOptions} {payload : Bytes} (hk : p.checkKey key = .ok ())
    (ht : ∀ t ∈ options.tags, checkTag t = .ok ()) (he : p.payload.encode key v = .ok payload) :
    p.write op key (some v) version options = (p.checkSize payload).map fun _ =>
      ⟨op, [.text (some key) p.keys, .list options.tags .base64, .number 0, .blob payload] ++
        (version.map fun v => .text (some v) .raw).toList ++
          [.number options.expireSecs, .empty]⟩ := by
  simp only [write, hk, forM_of_forall ht, payloadOf, he, Except.mapError]
  change (p.checkSize payload >>= _) = _
  cases p.checkSize payload <;> rfl

theorem setVersioned_eq {version : String} (h : checkVersion version = .ok ()) (key : String)
    (value : Option Value) (options : StoreOptions) :
    p.setVersioned key value version options =
      p.write .setVersioned key value (some version) options := by
  rw [setVersioned, h]
  rfl

end Profile

namespace Operation

variable {α : Type} {op : Operation α} {p : Profile} {r : Request}

/-- **Every field of a request fits its entry.** -/
theorem forall₂_fits (h : op.request p = .ok r) :
    List.Forall₂ (Entry.Fits p) op.entries r.pieces := by
  cases op with
  | init | version =>
    cases h
    exact .cons (Entry.fits_number p _) .nil
  | set | add =>
    obtain ⟨v, payload, rfl, hk, hv, rfl⟩ := Profile.write_eq_ok h
    exact .cons (Entry.fits_number p _) <| .cons (Entry.fits_key hk) <|
      .cons (Entry.fits_tags p _) <| .cons (Entry.fits_number p 0) <|
      .cons (Entry.fits_value hv) <| .cons (Entry.fits_number p _) <|
      .cons (Entry.fits_nothing p) .nil
  | setVersioned =>
    obtain ⟨ht, h⟩ := Profile.check_of_bind_ok h
    obtain ⟨v, payload, rfl, hk, hv, rfl⟩ := Profile.write_eq_ok h
    exact .cons (Entry.fits_number p _) <| .cons (Entry.fits_key hk) <|
      .cons (Entry.fits_tags p _) <| .cons (Entry.fits_number p 0) <|
      .cons (Entry.fits_value hv) <| .cons (Entry.fits_version ht) <|
      .cons (Entry.fits_number p _) <| .cons (Entry.fits_nothing p) .nil
  | get | getVersioned =>
    obtain ⟨hk, h⟩ := Profile.check_of_bind_ok h
    cases h
    exact .cons (Entry.fits_number p _) <| .cons (Entry.fits_key hk) .nil
  | remove =>
    obtain ⟨hk, h⟩ := Profile.check_of_bind_ok h
    cases h
    exact .cons (Entry.fits_number p _) <| .cons (Entry.fits_key hk) <|
      .cons (Entry.fits_number p 0) .nil
  | getMulti keys =>
    obtain ⟨hk, h⟩ := Profile.check_of_bind_ok h
    cases h
    refine .cons (Entry.fits_number p _) ?_
    rw [List.map_map, List.forall₂_map_left_iff, List.forall₂_map_right_iff, List.forall₂_same]
    exact fun key hm => Entry.fits_key (Profile.checkKey_of_forM hk key hm)
  | getTagKeys tag includeDeleted =>
    obtain ⟨-, h⟩ := Profile.check_of_bind_ok h
    cases h
    exact .cons (Entry.fits_number p _) <| .cons (Entry.fits_tag p tag) <|
      .cons (Entry.fits_flag p includeDeleted) .nil
  | getPairsByTag tag =>
    obtain ⟨-, h⟩ := Profile.check_of_bind_ok h
    cases h
    exact .cons (Entry.fits_number p _) <| .cons (Entry.fits_tag p tag) .nil

/-- What is put in a field stays within it. -/
theorem contained_pieces (h : op.request p = .ok r) : ∀ b ∈ r.pieces, Contained b := by
  have hfits := op.forall₂_fits h
  generalize op.entries = es at hfits
  generalize r.pieces = bs at hfits
  induction hfits with
  | nil => simp
  | cons hb _ ih => exact List.forall_mem_cons.2 ⟨hb.2, ih⟩

/-- **The request of every operation is one line.** -/
theorem isLine_line (h : op.request p = .ok r) : IsLine r.line :=
  ⟨_, Request.lineEnd_notMem_body (contained_pieces h), r.line_eq⟩

/-- **No argument can break out of its field.** The line of a request has one line end, its last
byte, and what stands between its separators is what the operation says, entry by entry. -/
theorem entries_of_line (h : op.request p = .ok r) :
    ∃ body, r.line = body ++ [lineEnd] ∧ lineEnd ∉ body ∧
      List.Forall₂ (Entry.Says p) op.entries (body.splitOn fieldSeparator) := by
  have hc := contained_pieces h
  refine ⟨_, r.line_eq, Request.lineEnd_notMem_body hc, ?_⟩
  rw [splitOn_joinWith (fun b hb => (hc b hb).1) (List.cons_ne_nil _ _)]
  exact (forall₂_fits h).imp fun _ _ he => he.1

/-- A write in place of a version, with a key as it is and two tags. -/
theorem entries_of_line_setVersioned :
    let p : Profile := ⟨.raw, .standard, none⟩
    ∃ r, (setVersioned "k" (some (.text "v")) "7" ⟨["a", "b"], 60⟩).request p = .ok r ∧
      r.line = Bytes.ofString "16,k,YQ==:Yg==,0,dg==,7,60,\n" ∧
      ∃ body, r.line = body ++ [lineEnd] ∧ lineEnd ∉ body ∧
        List.Forall₂ (Entry.Says p)
          [.number 16, .key "k", .tags ["a", "b"], .number 0, .value "k" (some (.text "v")),
            .version "7", .number 60, .nothing]
          (body.splitOn fieldSeparator) := by
  intro p
  have h : (setVersioned "k" (some (.text "v")) "7" ⟨["a", "b"], 60⟩).request p =
      .ok ⟨.setVersioned, [.text (some "k") .raw, .list ["a", "b"] .base64, .number 0, .blob [118],
        .text (some "7") .raw, .number 60, .empty]⟩ := by rfl
  exact ⟨_, h, by decide +kernel, entries_of_line h⟩

end Operation

end TagStore
