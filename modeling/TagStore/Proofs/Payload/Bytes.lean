import TagStore.Proofs.Payload

/-!
# Bytes read back

Bytes are stored as they are, or in a frame if a compressor is chosen for them. Nothing is put
before bytes that happen to start with a mark, so two kinds of them do not come back as what they
were. Those that write an object behind its mark are read as the object (`interpret_marks`). Those
that start as a frame and are stored as they are, are read as a frame. All others come back as
bytes, or as the text that they write (`decode_encode_bytes`).
-/

namespace TagStore

/-- Whether a value has the given content, as bytes or as the text that they write. -/
def Value.Holds (b : Bytes) : Value → Prop
  | text s => Bytes.ofString s = b
  | object _ => False
  | bytes b' => b' = b

/-- Whether bytes are the mark and the text of an object. -/
def ObjectCodec.Marks (b : Bytes) (o : Json) : Prop :=
  ∃ s, b = magic ++ Bytes.ofString s ∧ Json.parse? s = some o

namespace PayloadCodec

open ObjectCodec (Marks)

variable {codec : PayloadCodec} {key : String} {b payload : Bytes}

/-- Bytes behind the mark of objects are read as the object that they write. -/
theorem interpret_marks {o : Json} (hcodec : codec.objects = .json) (h : Marks b o) :
    codec.interpret b = (Value.object o).asRead := by
  obtain ⟨s, rfl, ho⟩ := h
  exact interpret_object hcodec ho

/-- Other bytes are read as what they are. -/
theorem holds_interpret (hcodec : codec.objects = .json) (h : ∀ o, ¬Marks b o) :
    (codec.interpret b).Holds b := by
  cases hutf : Utf8.decode? b with
  | some s =>
    obtain rfl := Utf8.ofString_of_decode? hutf
    rw [interpret_ofString]
    exact rfl
  | none =>
    have hobj : ∀ s, b = ObjectCodec.magic ++ Bytes.ofString s → Json.parse? s = none :=
      fun s hb => Option.eq_none_iff_forall_not_mem.2 fun o ho => h o ⟨s, hb, ho⟩
    rw [interpret_bytes hcodec hutf hobj]
    exact rfl

/-- **What becomes of bytes that are stored**, whatever chooses the compressor. In a frame, or
without the start of one, they are read as what they are, except that an object is read where they
are marked as one. Stored as they are and with the start of a frame, they are read as that frame. -/
theorem decode_encode_bytes (hcodec : codec.objects = .json)
    (select : String → Nat → Option CompressorId) (hne : b ≠ []) (hsize : b.length ≤ Frame.maxSize)
    (h : codec.encodeWith select key (.bytes b) = .ok payload) :
    (select key b.length ≠ none ∨ ¬Frame.magic <+: b →
      ∃ w, codec.decode payload = .ok (some w) ∧ ((∀ o, ¬Marks b o) → w.Holds b) ∧
        ∀ o, Marks b o → w = (Value.object o).asRead) ∧
    (select key b.length = none → Frame.magic <+: b →
      payload = b ∧ codec.decode payload = match codec.compressors.decompress b with
        | .ok data => .ok (some (codec.interpret data))
        | .error e => .error (.compression e)) := by
  have hread : codec.decode payload = .ok (some (codec.interpret b)) →
      ∃ w, codec.decode payload = .ok (some w) ∧ ((∀ o, ¬Marks b o) → w.Holds b) ∧
        ∀ o, Marks b o → w = (Value.object o).asRead :=
    fun hd => ⟨_, hd, holds_interpret hcodec, fun _ => interpret_marks hcodec⟩
  rcases encodeWith_eq_ok rfl h with ⟨hnone, rfl⟩ | ⟨id, hid, hc⟩
  · refine ⟨fun hw => hread ?_, fun _ hframe => ⟨rfl, ?_⟩⟩
    · have hframe : ¬Frame.magic <+: payload := hw.resolve_left (absurd hnone)
      exact decode_of_not_isFrame codec hne
        (Bool.eq_false_iff.2 fun hf => hframe (List.isPrefixOf_iff_prefix.1 hf))
    · have hframed : Frame.isFrame payload = true := List.isPrefixOf_iff_prefix.2 hframe
      rw [decode, if_neg hne, CompressorRegistry.decodePayload, if_pos hframed]
      cases codec.compressors.decompress payload <;> rfl
  · exact ⟨fun _ => hread (decode_of_compress hc hsize).2, fun hnone => by
      cases hnone.symm.trans hid⟩

/-- Bytes that start as a frame come back from a frame of their own. -/
theorem decode_encode_bytes_framed :
    let b : Bytes := [0xAC, 0xEE, 0xFF]
    ∃ payload, standard.encodeWith (fun _ _ => some .lz4) "k" (.bytes b) = .ok payload ∧
      ∃ w, standard.decode payload = .ok (some w) ∧ w.Holds b := by
  intro b
  have hc : standard.compressors.get? .lz4 = some .lz4 := by decide
  obtain ⟨payload, hpayload⟩ : ∃ payload, standard.compressors.compress .lz4 b = .ok payload :=
    ⟨_, CompressorRegistry.compress_of_get? hc (by decide)⟩
  have h : standard.encodeWith (fun _ _ => some .lz4) "k" (.bytes b) = .ok payload := by
    simp only [encodeWith, plain, hpayload]
  obtain ⟨hwrapped, -⟩ := decode_encode_bytes rfl _ (List.cons_ne_nil _ _) (by decide) h
  obtain ⟨w, hw, hholds, -⟩ := hwrapped (.inl (Option.some_ne_none _))
  have hmarks : ∀ o, ¬Marks b o := by
    rintro o ⟨s, hs, -⟩
    simp [b, ObjectCodec.magic] at hs
  exact ⟨_, h, w, hw, hholds hmarks⟩

/-- Bytes that do not come back: the start of a frame, a frame of two letters, and an object, each
stored as it is. -/
theorem bytes_misread :
    let start : Bytes := [0xAC, 0xEE]
    let framed : Bytes := [0xAC, 0xEE, 2, 2, 0, 0, 0, 32, 104, 105]
    let marked : Bytes := [0xAC, 0xED, 116, 114, 117, 101]
    (standard.encode "k" (.bytes start) = .ok start ∧
      ¬∃ w, standard.decode start = .ok (some w) ∧ w.Holds start) ∧
    (standard.encode "k" (.bytes framed) = .ok framed ∧
      standard.decode framed = .ok (some (.text "hi")) ∧ ¬(Value.text "hi").Holds framed) ∧
    (standard.encode "k" (.bytes marked) = .ok marked ∧
      standard.decode marked = .ok (some (.object (.bool true))) ∧
      ¬(Value.object (.bool true)).Holds marked) := by
  dsimp only
  refine ⟨⟨rfl, ?_⟩, ⟨rfl, ?_, ?_⟩, rfl, ?_, id⟩
  · rintro ⟨w, hw, -⟩
    cases hw
  · rfl
  · rw [Value.Holds]
    decide
  · rfl

end PayloadCodec

end TagStore
