import TagStore.Proofs.Compression.Limits

/-!
# What a reader makes of arbitrary bytes

Frames come from other clients and through faults, so a reader meets any bytes at all. What it makes
of them is told by their head, piece by piece: the magic, the identifier, the size. Only then does
the compressed form have a say, and no more of a say than to give as many bytes as the size declares
or an error (`CompressorRegistry.decompress_classified`).
-/

namespace TagStore

namespace Frame

open Compression

variable {c : Compressor} {b size rest out : Bytes} {e : CompressionError}

/-- A frame that ends within the size of its data is truncated. -/
theorem readBody_of_short (h : b.length < 4) : readBody c b = .error (missingSize c b.length) := by
  rw [readBody, List.take_of_length_le (Nat.le_of_lt h)]
  exact if_pos h

theorem exists_missingSize (c : Compressor) (n : Nat) :
    ∃ detail, missingSize c n = .truncated detail := by
  cases c with
  | deflate => exact ⟨_, rfl⟩
  | lz4 => exact ⟨_, rfl⟩

/-- A size that a reader takes leaves the word to the compressed form, and then it is compared with
what came of that. -/
theorem readBody_of_size (rest : Bytes) (hlen : size.length = 4) (h : readSize c size ≤ maxSize) :
    readBody c (size ++ rest) =
      match unpack c (readSize c size) rest with
      | .error e => .error e
      | .ok data =>
        if data.length = readSize c size then .ok data
        else .error (.sizeMismatch (readSize c size) data.length) := by
  rw [readBody, List.take_left' hlen, List.drop_left' hlen, hlen, if_neg (by decide)]
  exact if_neg (Nat.not_lt.2 h)

/-- **Data of a frame is what its compressed form holds**, in the declared number of bytes. -/
theorem readBody_eq_ok_iff (hlen : size.length = 4) (h : readSize c size ≤ maxSize) :
    readBody c (size ++ rest) = .ok out ↔
      unpack c (readSize c size) rest = .ok out ∧ out.length = readSize c size := by
  rw [readBody_of_size rest hlen h]
  cases unpack c (readSize c size) rest with
  | error e => simp
  | ok data =>
    dsimp only
    split
    · rename_i hsame
      refine ⟨?_, And.left⟩
      rintro ⟨⟩
      exact ⟨rfl, hsame⟩
    · rename_i hother
      refine ⟨nofun, ?_⟩
      rintro ⟨⟨⟩, hsame⟩
      exact absurd hsame hother

/-- Data of another size than the declared one is refused. -/
theorem readBody_of_mismatch (hlen : size.length = 4) (h : readSize c size ≤ maxSize)
    (hout : unpack c (readSize c size) rest = .ok out) (hother : out.length ≠ readSize c size) :
    readBody c (size ++ rest) = .error (.sizeMismatch (readSize c size) out.length) := by
  rw [readBody_of_size rest hlen h, hout]
  exact if_neg hother

/-- Why a compressed form holds no data. Only one that is to fill all the room that there may be can
be found too long. -/
theorem unpack_error {n : Nat} (hn : n ≤ maxSize) (h : unpack c n b = .error e) :
    (∃ detail, e = .decompression detail) ∨
      c = .deflate ∧ ((∃ detail, e = .truncated detail) ∨
        n = maxSize ∧ e = .sizeLimitExceeded maxSize maxSize) := by
  cases c with
  | deflate =>
    have hcapacity : ((Output.ofBytes []).reserve (max n Output.block)).capacity =
        max n Output.block := by
      rw [Output.capacity_reserve_ofBytes]
      exact Nat.zero_add _
    have hblock : Output.block < maxSize := by decide
    rw [unpack_deflate] at h
    obtain rfl | rfl | ⟨-, hfull, rfl⟩ := Inflater.finish_error h
      (fun hstopped => absurd rfl hstopped) (fun _ => by omega)
    · exact .inl ⟨_, rfl⟩
    · exact .inr ⟨rfl, .inl ⟨_, rfl⟩⟩
    · exact .inr ⟨rfl, .inr ⟨by omega, rfl⟩⟩
  | lz4 =>
    rw [unpack_lz4] at h
    split at h
    · cases h
    · cases h
      exact .inl ⟨_, rfl⟩

/-- A body ends within its size or has one. -/
theorem short_or_size (b : Bytes) :
    b.length < 4 ∨ ∃ size rest, b = size ++ rest ∧ size.length = 4 := by
  obtain h | h := Nat.lt_or_ge b.length 4
  · exact .inl h
  · exact .inr ⟨b.take 4, b.drop 4, (List.take_append_drop 4 b).symm, List.length_take_of_le h⟩

/-- Why there is no data in a body. -/
theorem readBody_error (h : readBody c b = .error e) :
    (∃ detail, e = .truncated detail) ∨ (∃ detail, e = .decompression detail) ∨
      (∃ n limit, e = .sizeLimitExceeded n limit) ∨ ∃ n m, e = .sizeMismatch n m := by
  obtain hshort | ⟨size, rest, rfl, hlen⟩ := short_or_size b
  · obtain ⟨detail, hd⟩ := exists_missingSize c b.length
    rw [readBody_of_short hshort, hd] at h
    cases h
    exact .inl ⟨detail, rfl⟩
  obtain hlong | hle := Nat.lt_or_ge maxSize (readSize c size)
  · rw [readBody_of_long rest hlen hlong] at h
    cases h
    exact .inr (.inr (.inl ⟨_, _, rfl⟩))
  · rw [readBody_of_size rest hlen hle] at h
    split at h
    · rename_i hunpack
      cases h
      obtain hd | ⟨-, hd | ⟨-, hl⟩⟩ := unpack_error hle hunpack
      · exact .inr (.inl hd)
      · exact .inl hd
      · exact .inr (.inr (.inl ⟨_, _, hl⟩))
    · split at h
      · cases h
      · cases h
        exact .inr (.inr (.inr ⟨_, _, rfl⟩))

/-- No body gives more data than a reader takes. -/
theorem length_of_readBody (h : readBody c b = .ok out) : out.length ≤ maxSize := by
  obtain hshort | ⟨size, rest, rfl, hlen⟩ := short_or_size b
  · rw [readBody_of_short hshort] at h
    cases h
  obtain hlong | hle := Nat.lt_or_ge maxSize (readSize c size)
  · rw [readBody_of_long rest hlen hlong] at h
    cases h
  · obtain ⟨-, hout⟩ := (readBody_eq_ok_iff hlen hle).1 h
    exact hout ▸ hle

end Frame

namespace CompressorRegistry

open TagStore.Frame

variable {r : CompressorRegistry} {p out : Bytes}

/-- There are four places for a compressor. -/
theorem named?_eq_none_of_le (r : CompressorRegistry) {id : UInt8} (h : 4 ≤ id.toNat) :
    r.named? id = none := by
  rw [named?, CompressorId.ofNat?, dif_neg (Nat.not_lt.2 h), Option.bind_none]

theorem decompress_magic (r : CompressorRegistry) :
    r.decompress magic = .error (.truncated "frame ends before compressor id") := rfl

/-- Only bytes without the magic are no frame. -/
theorem decompress_eq_notCompressed_iff :
    r.decompress p = .error .notCompressed ↔ ¬ magic <+: p := by
  refine ⟨fun h hframe => ?_, fun h => ?_⟩
  · obtain rfl | ⟨id, body, rfl⟩ := eq_magic_or_cons hframe
    · cases h
    · rw [decompress_cons] at h
      split at h
      · cases h
      · simpa using readBody_error h
  · rw [decompress, decompressWith_of_not_frame _ r h]

/-- The only identifier that a registry complains about is that of the frame, and only if nothing is
registered under it. -/
theorem decompress_eq_unknownCompressor_iff {id : UInt8} {body : Bytes} {n : Nat} :
    r.decompress (magic ++ id :: body) = .error (.unknownCompressor n) ↔
      n = id.toNat ∧ r.named? id = none := by
  rw [decompress_cons]
  cases r.named? id with
  | none => simp [eq_comm]
  | some c => simpa using fun h => by simpa using readBody_error h

/-- A registry takes no bytes for more data than a reader takes. -/
theorem length_of_decompress (h : r.decompress p = .ok out) : out.length ≤ maxSize := by
  by_cases hframe : magic <+: p
  · obtain rfl | ⟨id, body, rfl⟩ := eq_magic_or_cons hframe
    · cases h
    · rw [decompress_cons] at h
      split at h
      · cases h
      · exact length_of_readBody h
  · rw [decompress_eq_notCompressed_iff.2 hframe] at h
    cases h

theorem decodePayload_of_frame (h : magic <+: p) : r.decodePayload p = r.decompress p :=
  if_pos (isFrame_iff.2 h)

/-- A payload is handed back as it is exactly if it is no frame. -/
theorem frameData?_eq_none_iff : r.frameData? p = .ok none ↔ ¬ magic <+: p := by
  rw [frameData?, ← isFrame_iff]
  cases isFrame p with
  | false => simp
  | true => cases r.decompress p <;> simp [Except.map]

/-- **What a registry makes of any bytes.** Bytes without the magic are a payload that is handed
back as it is, and no others are. The rest are frames, and the first piece that is wrong with one
decides: it has no identifier; nothing is registered under its identifier, as under none from four
on; it ends within its size; its size is greater than 256 MiB, whatever follows. If none of this is
wrong with it, then its data is what the compressed form holds, in the declared number of bytes;
another number of bytes is a mismatch, and a form that holds nothing says why. -/
theorem decompress_classified (r : CompressorRegistry) (p : Bytes) :
    (r.frameData? p = .ok none ↔ ¬ magic <+: p) ∧
    (r.decompress p = .error .notCompressed ↔ ¬ magic <+: p) ∧
    r.decodePayload p = (if magic <+: p then r.decompress p else .ok p) ∧
    (∀ out, r.decompress p = .ok out → out.length ≤ maxSize) ∧
    (p = magic → r.decompress p = .error (.truncated "frame ends before compressor id")) ∧
    ∀ id body, p = magic ++ id :: body →
      (∀ n, r.decompress p = .error (.unknownCompressor n) ↔
        n = id.toNat ∧ r.named? id = none) ∧
      (4 ≤ id.toNat → r.named? id = none) ∧
      ∀ c, r.named? id = some c →
        (body.length < 4 → ∃ detail, r.decompress p = .error (.truncated detail)) ∧
        ∀ size rest, body = size ++ rest → size.length = 4 →
          (maxSize < readSize c size →
            r.decompress p = .error (.sizeLimitExceeded (readSize c size) maxSize)) ∧
          (readSize c size ≤ maxSize →
            (∀ out, r.decompress p = .ok out ↔
              unpack c (readSize c size) rest = .ok out ∧ out.length = readSize c size) ∧
            (∀ out, unpack c (readSize c size) rest = .ok out → out.length ≠ readSize c size →
              r.decompress p = .error (.sizeMismatch (readSize c size) out.length)) ∧
            ∀ e, unpack c (readSize c size) rest = .error e →
              r.decompress p = .error e ∧
              ((∃ detail, e = .decompression detail) ∨
                c = .deflate ∧ ((∃ detail, e = .truncated detail) ∨
                  readSize c size = maxSize ∧ e = .sizeLimitExceeded maxSize maxSize))) := by
  refine ⟨frameData?_eq_none_iff, decompress_eq_notCompressed_iff, ?_,
    fun out => length_of_decompress, fun hp => hp ▸ decompress_magic r, ?_⟩
  · split
    · rename_i hframe
      exact decodePayload_of_frame hframe
    · rename_i hplain
      exact if_neg fun hframe => hplain (isFrame_iff.1 hframe)
  · rintro id body rfl
    refine ⟨fun n => decompress_eq_unknownCompressor_iff, r.named?_eq_none_of_le, fun c hc => ?_⟩
    have hread : r.decompress (magic ++ id :: body) = readBody c body := by
      rw [decompress_cons, hc]
    rw [hread]
    refine ⟨fun hshort => ?_, ?_⟩
    · obtain ⟨detail, hd⟩ := exists_missingSize c body.length
      exact ⟨detail, hd ▸ readBody_of_short hshort⟩
    · rintro size rest rfl hlen
      refine ⟨readBody_of_long rest hlen, fun hle => ⟨fun out => readBody_eq_ok_iff hlen hle,
        fun out => readBody_of_mismatch hlen hle, fun e he => ⟨?_, unpack_error hle he⟩⟩⟩
      rw [readBody_of_size rest hlen hle, he]

/-- Half a gigabyte declared before the start of a stream, a size that is cut short, an identifier
that nobody uses and one that other clients use. -/
theorem decompress_classified_hostile :
    standard.decompress [0xAC, 0xEE, 0, 0x20, 0, 0, 1, 0x78, 0x01] =
      .error (.sizeLimitExceeded 536870913 maxSize) ∧
    (∃ detail, standard.decompress [0xAC, 0xEE, 2, 0xFF] = .error (.truncated detail)) ∧
    standard.decompress [0xAC, 0xEE, 7] = .error (.unknownCompressor 7) ∧
    standard.decompress [0xAC, 0xEE, 1, 0] = .error (.unknownCompressor 1) := by
  refine ⟨?_, ?_, ?_, ?_⟩
  · obtain ⟨-, -, -, -, -, hframe⟩ := decompress_classified standard
      [0xAC, 0xEE, 0, 0x20, 0, 0, 1, 0x78, 0x01]
    obtain ⟨-, -, hnamed⟩ := hframe 0 _ rfl
    obtain ⟨-, hsize⟩ := hnamed .deflate (by decide)
    exact (hsize [0x20, 0, 0, 1] [0x78, 0x01] rfl rfl).1 (by decide)
  · obtain ⟨-, -, -, -, -, hframe⟩ := decompress_classified standard [0xAC, 0xEE, 2, 0xFF]
    obtain ⟨-, -, hnamed⟩ := hframe 2 _ rfl
    exact (hnamed .lz4 (by decide)).1 (by decide)
  · obtain ⟨-, -, -, -, -, hframe⟩ := decompress_classified standard [0xAC, 0xEE, 7]
    obtain ⟨hunknown, hplaces, -⟩ := hframe 7 _ rfl
    exact (hunknown 7).2 ⟨rfl, hplaces (by decide)⟩
  · obtain ⟨-, -, -, -, -, hframe⟩ := decompress_classified standard [0xAC, 0xEE, 1, 0]
    obtain ⟨hunknown, -⟩ := hframe 1 _ rfl
    exact (hunknown 1).2 ⟨rfl, by decide⟩

end CompressorRegistry

end TagStore
