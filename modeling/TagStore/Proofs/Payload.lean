import TagStore.Proofs.Base64
import TagStore.Proofs.Compression.Frame
import TagStore.Proofs.Json.Strings
import TagStore.Proofs.Wire.Cutting

/-!
# Payloads read back

A value is told from other values by how its plain form starts. No text starts with the first byte
of the two marks (`Utf8.decode?_magic`), an object starts with its own mark, and bytes are taken
for what they are unless they could have been written for something else (`Value.Distinct`). So the
plain form is understood (`PayloadCodec.interpret_plain`), and through compression, Base64 and any
cut of the stream a value reads back (`PayloadCodec.value_blob`).
-/

namespace TagStore

open Wire

/-! ## How texts start -/

namespace Utf8

/-- Well-formed bytes start with the first byte of a character. -/
theorem decode?_cons_eq_none {x : UInt8} (hx : ¬x.IsUTF8FirstByte) (b : Bytes) :
    decode? (x :: b) = none := by
  rw [decode?, String.fromUTF8?, dif_neg]
  intro h
  exact hx (h.isUTF8FirstByte_getElem_zero (by simp [ByteArray.size]))

/-- No text starts with the first byte of the marks. -/
theorem decode?_magic (b : Bytes) : decode? (0xAC :: b) = none :=
  decode?_cons_eq_none (by decide) b

/-- Bytes that read as a text are its UTF-8 form. -/
theorem ofString_of_decode? {b : Bytes} {s : String} (h : decode? b = some s) :
    b = Bytes.ofString s := by
  rw [decode?, String.fromUTF8?] at h
  split at h
  · cases h
    rfl
  · cases h

theorem ofString_ne_magic (s : String) (b : Bytes) : Bytes.ofString s ≠ 0xAC :: b := by
  intro h
  have hs := decode?_ofString s
  rw [h, decode?_magic] at hs
  cases hs

end Utf8

namespace Value

/-- What reading makes of a value: an object that is a string becomes a text. -/
def asRead : Value → Value
  | object (.string s) => text s
  | v => v

/-- Whether reading can tell a value from what else is written. Any text is; an object is if it
reads back from its own text; bytes are if they are some, are no text, and are neither marked as a
frame nor as an object that can be read. -/
def Legible : Value → Prop
  | text _ => True
  | object o => Json.parse? o.render = some o
  | bytes b => b ≠ [] ∧ Utf8.decode? b = none ∧ ¬Frame.magic <+: b ∧
      ∀ s, b = ObjectCodec.magic ++ Bytes.ofString s → Json.parse? s = none

end Value

namespace PayloadCodec

variable {codec : PayloadCodec} {key : String} {v : Value} {form b : Bytes}

/-! ## Plain forms -/

theorem isFrame_ofString (s : String) : Frame.isFrame (Bytes.ofString s) = false := by
  apply Bool.eq_false_iff.2
  intro h
  obtain ⟨r, hr⟩ := List.isPrefixOf_iff_prefix.1 h
  exact Utf8.ofString_ne_magic s (0xEE :: r) hr.symm

theorem interpret_ofString (codec : PayloadCodec) (s : String) :
    codec.interpret (Bytes.ofString s) = .text s := by
  have hmark : ObjectCodec.magic.isPrefixOf (Bytes.ofString s) = false := by
    apply Bool.eq_false_iff.2
    intro h
    obtain ⟨r, hr⟩ := List.isPrefixOf_iff_prefix.1 h
    exact Utf8.ofString_ne_magic s (0xED :: r) hr.symm
  rw [interpret, hmark, Utf8.decode?_ofString]
  rfl

/-- The plain form of an object that reads back from its text. -/
theorem encodeObject_eq_ok {o : Json} (hcodec : codec.objects = .json)
    (h : codec.encodeObject o = .ok form) :
    form = ObjectCodec.magic ++ Bytes.ofString o.render := by
  rw [encodeObject, hcodec] at h
  split at h
  · exact (Except.ok.inj h).symm
  · cases h

/-- An object is told by its mark. -/
theorem interpret_object {s : String} {o : Json} (hcodec : codec.objects = .json)
    (ho : Json.parse? s = some o) :
    codec.interpret (ObjectCodec.magic ++ Bytes.ofString s) = (Value.object o).asRead := by
  have hmark : ObjectCodec.magic.isPrefixOf (ObjectCodec.magic ++ Bytes.ofString s) = true :=
    List.isPrefixOf_iff_prefix.2 (List.prefix_append _ _)
  have hdecode : ObjectCodec.json.decode (ObjectCodec.magic ++ Bytes.ofString s) = .ok o := by
    rw [ObjectCodec.decode, if_pos hmark, List.drop_left, Utf8.decode?_ofString, Option.bind_some,
      ho]
  rw [interpret, if_pos hmark, hcodec, hdecode]
  cases o <;> rfl

theorem isFrame_object (o : Json) :
    Frame.isFrame (ObjectCodec.magic ++ Bytes.ofString o.render) = false := rfl

/-- Bytes that are no text and no object that can be read are bytes. -/
theorem interpret_bytes (hcodec : codec.objects = .json) (hutf : Utf8.decode? b = none)
    (hobj : ∀ s, b = ObjectCodec.magic ++ Bytes.ofString s → Json.parse? s = none) :
    codec.interpret b = .bytes b := by
  rw [interpret]
  split
  · rename_i hmark
    obtain ⟨r, rfl⟩ := List.isPrefixOf_iff_prefix.1 hmark
    have hnone : (Utf8.decode? r).bind Json.parse? = none := by
      cases hs : Utf8.decode? r with
      | none => rfl
      | some s => exact hobj s (by rw [Utf8.ofString_of_decode? hs])
    have hdecode : ObjectCodec.json.decode (ObjectCodec.magic ++ r) =
        .error (.json "invalid text") := by
      rw [ObjectCodec.decode, if_pos hmark, List.drop_left, hnone]
    rw [hcodec, hdecode]
  · rw [hutf]

/-- **The plain form of a value is told from every other.** -/
theorem interpret_plain (hcodec : codec.objects = .json) (hv : v.Legible)
    (h : codec.plain v = .ok form) :
    codec.interpret form = v.asRead ∧ Frame.isFrame form = false := by
  cases v with
  | text s =>
    rw [PayloadCodec.plain] at h
    split at h
    · obtain rfl := encodeObject_eq_ok hcodec h
      exact ⟨interpret_object hcodec (Json.parse?_render_string s), isFrame_object _⟩
    · cases h
      exact ⟨interpret_ofString codec s, isFrame_ofString s⟩
  | object o =>
    obtain rfl := encodeObject_eq_ok hcodec h
    exact ⟨interpret_object hcodec hv, isFrame_object o⟩
  | bytes b =>
    cases h
    obtain ⟨-, hutf, hframe, hobj⟩ := hv
    refine ⟨interpret_bytes hcodec hutf hobj, Bool.eq_false_iff.2 ?_⟩
    intro h
    exact hframe (List.isPrefixOf_iff_prefix.1 h)

/-- Only the empty text has no bytes. -/
theorem eq_text_of_plain_nil (hcodec : codec.objects = .json) (hv : v.Legible)
    (h : codec.plain v = .ok []) : v = .text "" := by
  have hmark : ∀ o, codec.encodeObject o ≠ .ok [] := fun o ho => by
    cases encodeObject_eq_ok hcodec ho
  cases v with
  | text s =>
    rw [PayloadCodec.plain] at h
    split at h
    · exact absurd h (hmark _)
    · have hs := Utf8.decode?_ofString s
      rw [Except.ok.inj h] at hs
      rw [← Option.some.inj hs]
      rfl
  | object o => exact absurd h (hmark o)
  | bytes b =>
    cases h
    exact absurd rfl hv.1

/-! ## Stored forms -/

/-- What is stored is the plain form, or a frame of it if a compressor is chosen. -/
theorem encodeWith_eq_ok {select : String → Nat → Option CompressorId}
    (hp : codec.plain v = .ok form) (h : codec.encodeWith select key v = .ok b) :
    select key form.length = none ∧ b = form ∨
      ∃ id, select key form.length = some id ∧ codec.compressors.compress id form = .ok b := by
  rw [encodeWith, hp] at h
  dsimp only at h
  split at h
  · rename_i hnone
    exact .inl ⟨hnone, (Except.ok.inj h).symm⟩
  · rename_i id hid
    refine .inr ⟨id, hid, ?_⟩
    split at h
    · rename_i hframed
      rw [hframed, Except.ok.inj h]
    · cases h

/-- What is stored is the plain form, or a frame of it if it is not empty. -/
theorem encode_eq_ok (hp : codec.plain v = .ok form) (h : codec.encode key v = .ok b) :
    b = form ∨ form ≠ [] ∧ ∃ id, codec.compressors.compress id form = .ok b := by
  rcases encodeWith_eq_ok hp h with ⟨-, rfl⟩ | ⟨id, hid, hc⟩
  · exact .inl rfl
  · refine .inr ⟨fun hnil => ?_, id, hc⟩
    simp only [hnil, CompressionStrategy.select] at hid
    split at hid
    · cases hid
    · rw [List.length_nil, if_neg (Nat.not_lt_zero _)] at hid
      cases hid

/-- Bytes that are no frame are read for themselves. -/
theorem decode_of_not_isFrame (codec : PayloadCodec) (hne : b ≠ [])
    (hframe : Frame.isFrame b = false) : codec.decode b = .ok (some (codec.interpret b)) := by
  rw [decode, if_neg hne, CompressorRegistry.decodePayload, hframe]
  rfl

/-- A frame is read for the data in it. -/
theorem decode_of_compress {id : CompressorId} (hc : codec.compressors.compress id form = .ok b)
    (hsize : form.length ≤ Frame.maxSize) :
    b ≠ [] ∧ codec.decode b = .ok (some (codec.interpret form)) := by
  have hne := CompressorRegistry.ne_nil_of_compress hc
  refine ⟨hne, ?_⟩
  rw [decode, if_neg hne, CompressorRegistry.decodePayload_compress hc hsize]

/-- **What is stored for a value is read as the value**, unless it is the empty text, for which
nothing is stored. -/
theorem decode_encode (hcodec : codec.objects = .json) (hv : v.Legible)
    (hp : codec.plain v = .ok form) (hsize : form.length ≤ Frame.maxSize)
    (h : codec.encode key v = .ok b) :
    b = [] ∧ v = .text "" ∨ b ≠ [] ∧ codec.decode b = .ok (some v.asRead) := by
  obtain ⟨hint, hframe⟩ := interpret_plain hcodec hv hp
  rw [← hint]
  rcases encode_eq_ok hp h with rfl | ⟨-, id, hc⟩
  · by_cases hb : b = []
    · exact .inl ⟨hb, eq_text_of_plain_nil hcodec hv (hb ▸ hp)⟩
    · exact .inr ⟨hb, decode_of_not_isFrame codec hb hframe⟩
  · exact .inr (decode_of_compress hc hsize)

/-- What is stored is longer than the plain form by an eighth part and a few bytes at most. -/
theorem length_of_encode (hp : codec.plain v = .ok form) (h : codec.encode key v = .ok b) :
    8 * b.length ≤ 9 * form.length + 123 := by
  rcases encode_eq_ok hp h with rfl | ⟨-, id, hc⟩
  · omega
  · exact CompressorRegistry.length_of_compress hc

/-! ## Fields -/

theorem encode_eq_nil {b : Bytes} (h : Base64.encode b = []) : b = [] := by
  have hd := Base64.decode?_encode b
  rw [h] at hd
  exact (Option.some.inj hd).symm

/-- The field that is written for a value is read as the value. -/
theorem value_encode (hcodec : codec.objects = .json) (hv : v.Legible)
    (hp : codec.plain v = .ok form) (hsize : form.length ≤ Frame.maxSize)
    (h : codec.encode key v = .ok b) :
    Wire.value codec (Field.blob b).bytes = .ok (some v.asRead) := by
  rcases decode_encode hcodec hv hp hsize h with ⟨rfl, rfl⟩ | ⟨hb, hd⟩
  · rfl
  · rw [Field.bytes, Wire.value, if_neg fun hnil => hb (encode_eq_nil hnil),
      if_neg (Base64.encode_ne_absent b), Base64.decode?_encode]
    exact hd

/-- **What is written is what is read.** A value that is encoded, and whose field stands at the head
of what is left to a reader, is read as the value, whatever the strategy and however the field is
cut. -/
theorem value_blob (hcodec : codec.objects = .json) (hv : v.Legible)
    (hp : codec.plain v = .ok form) (hsize : form.length ≤ Frame.maxSize)
    (h : codec.encode key v = .ok b) (limit : Option Duration) {r : Reader (List Arrival)}
    {x : UInt8} {rest : Bytes} (harr : Arrival.Plain r.stream) (hroom : 0 < r.buffer.capacity)
    (hx : x = fieldSeparator ∨ x = lineEnd) (hr : r.leftover = (Field.blob b).bytes ++ x :: rest) :
    (Reading.value (Arrival.source limit) codec r).1 = .ok (some v.asRead) ∧
      (Reading.value (Arrival.source limit) codec r).2.leftover = rest := by
  have hf : ∀ y ∈ (Field.blob b).bytes, y ≠ fieldSeparator ∧ y ≠ lineEnd := by
    intro y hy
    have hdel := Base64.not_isDelimiter_of_mem_encode hy
    rw [isDelimiter, Bool.or_eq_false_iff, Bool.or_eq_false_iff] at hdel
    exact ⟨beq_eq_false_iff_ne.1 hdel.1.1, beq_eq_false_iff_ne.1 hdel.2⟩
  have hlen : (Field.blob b).bytes.length ≤ maxFieldSize := by
    have hb := length_of_encode hp h
    rw [Frame.maxSize] at hsize
    rw [Field.bytes, Base64.length_encode, Base64.encodedLength, maxFieldSize]
    omega
  obtain ⟨hvalue, hrest⟩ :=
    Reading.parsed_leftover limit (Wire.value codec) harr hroom hf hlen hx hr
  exact ⟨hvalue.trans (value_encode hcodec hv hp hsize h), hrest⟩

/-- An object that is a string, cut into two pieces, is read as a text. -/
theorem value_blob_string :
    let r : Reader (List Arrival) :=
      .start ([[114, 79, 48], [105, 97, 71, 107, 105, 10]].map .bytes) (.ofCapacity 4)
    (Reading.value (Arrival.source none) .standard r).1 = .ok (some (.text "hi")) ∧
      (Reading.value (Arrival.source none) .standard r).2.leftover = [] := by
  intro r
  have hcodec : standard.objects = .json := rfl
  have hv : (Value.object (.string "hi")).Legible := Json.parse?_render_string "hi"
  have hp : standard.plain (.object (.string "hi")) =
      .ok [0xAC, 0xED, 0x22, 0x68, 0x69, 0x22] := by rfl
  have h : standard.encode "key" (.object (.string "hi")) =
      .ok [0xAC, 0xED, 0x22, 0x68, 0x69, 0x22] := by rfl
  have hr : r.leftover = (Field.blob [0xAC, 0xED, 0x22, 0x68, 0x69, 0x22]).bytes ++ [lineEnd] := by
    decide
  have hsize : [0xAC, 0xED, 0x22, 0x68, 0x69, 0x22].length ≤ Frame.maxSize := by decide
  have harr : Arrival.Plain r.stream := Arrival.plain_map_bytes (by decide)
  exact value_blob hcodec hv hp hsize h none harr (by decide) (.inr rfl) hr

end PayloadCodec

end TagStore
