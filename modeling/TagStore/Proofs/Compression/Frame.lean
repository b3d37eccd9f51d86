import TagStore.Proofs.Compression.Deflating
import TagStore.Proofs.Compression.Lz4
import TagStore.Proofs.Compression.Zlib

/-!
# Frames read back

Data that a registry puts into a frame is what the same registry reads of the frame
(`CompressorRegistry.decodePayload_compress`), whichever of its compressors was asked for, as long
as the data is no greater than a reader takes. Such data is always put into a frame, and nothing but
the compressor asked for has a say in it, not even what its engines were used for before
(`CompressorRegistry.compress_reads_back`).
-/

namespace TagStore

namespace Frame

open Compression

variable {data b : Bytes} {bound : Nat} {s : DeflateCompressor}

theorem isFrame_iff {b : Bytes} : isFrame b = true ↔ magic <+: b := List.isPrefixOf_iff_prefix

/-- The compressed form of data. -/
def pack (c : Compressor) (data : Bytes) : Bytes :=
  match c with
  | .deflate => Zlib.encode data
  | .lz4 => Lz4.encode data

/-- **A frame is its head and the compressed form.** Only data whose size four bytes cannot hold is
refused. -/
theorem write_eq (hs : s.Kept bound) (c : Compressor) (h : data.length ≤ maxDeclared) :
    (write s c data).1 =
      .ok (magic ++ UInt8.ofNat c.id.val :: (sizeBytes c data.length ++ pack c data)) := by
  rw [write, if_neg (Nat.not_lt.2 h)]
  cases c with
  | deflate => exact (hs.deflate data _).1.trans (congrArg Except.ok (List.append_assoc _ _ _))
  | lz4 =>
    refine (Lz4.write_eq (Nat.le_of_eq ?_)).trans (congrArg Except.ok (List.append_assoc _ _ _))
    exact (Output.room_reserve_ofBytes _ _).symm

theorem write_of_long (s : DeflateCompressor) (c : Compressor) (h : maxDeclared < data.length) :
    write s c data = (.error (.sizeLimitExceeded data.length maxDeclared), s) :=
  if_pos h

/-- Writing a frame leaves the pools as they should be. -/
theorem kept_write (hs : s.Kept bound) (c : Compressor) (data : Bytes) :
    (write s c data).2.Kept bound := by
  rw [write]
  split
  · exact hs
  · cases c with
    | deflate => exact (hs.deflate data _).2
    | lz4 => exact hs

@[simp] theorem length_sizeBytes (c : Compressor) (n : Nat) : (sizeBytes c n).length = 4 := by
  cases c <;> rfl

theorem readSize_sizeBytes (c : Compressor) {n : Nat} (h : n ≤ maxDeclared) :
    readSize c (sizeBytes c n) = n := by
  have hlt : n < 4294967296 := Nat.lt_succ_of_le h
  cases c with
  | deflate => exact Bytes.readBE_be32 hlt
  | lz4 => exact Bytes.readLE_le32 hlt

/-- What is read of a compressed form does not depend on what was read before. -/
theorem unpackWith_eq (hs : s.Kept bound) (c : Compressor) (size : Nat) (b : Bytes) :
    (unpackWith s c size b).1 = unpack c size b ∧ (unpackWith s c size b).2.Kept bound := by
  cases c with
  | deflate =>
    obtain ⟨hresult, hkept⟩ :=
      hs.inflate maxSize b ((Output.ofBytes []).reserve (max size Output.block))
    obtain ⟨hunused, -⟩ := (DeflateCompressor.kept_new EnginePool.defaultMaxIdle).inflate maxSize b
      ((Output.ofBytes []).reserve (max size Output.block))
    exact ⟨hresult.trans hunused.symm, hkept⟩
  | lz4 =>
    rw [unpack, unpackWith, unpackWith]
    cases Lz4.decode? size b with
    | none => exact ⟨rfl, hs⟩
    | some data => exact ⟨rfl, hs⟩

theorem unpack_deflate (size : Nat) (b : Bytes) :
    unpack .deflate size b = (Inflater.start.finish maxSize b
      ((Output.ofBytes []).reserve (max size Output.block))).1 :=
  ((DeflateCompressor.kept_new _).inflate _ _ _).1

theorem unpack_lz4 (size : Nat) (b : Bytes) :
    unpack .lz4 size b = match Lz4.decode? size b with
      | some data => .ok data
      | none => .error (.decompression "invalid LZ4 block") := by
  rw [unpack, unpackWith]
  cases Lz4.decode? size b <;> rfl

/-- Each compressor reads back what it wrote. -/
theorem unpack_pack (c : Compressor) (data : Bytes) :
    unpack c data.length (pack c data) = .ok data := by
  cases c with
  | deflate =>
    have hroom : data.length ≤
        ((Output.ofBytes []).reserve (max data.length Output.block)).room := by
      rw [Output.room_reserve_ofBytes]
      exact Nat.le_max_left _ _
    rw [unpack_deflate]
    exact Inflater.finish_of_decode (Zlib.decode_encode hroom) hroom
  | lz4 =>
    rw [unpack_lz4, pack, Lz4.decode?_encode]

/-- The compressed form is longer than the data by an eighth part and a few bytes at most. -/
theorem length_pack_le (c : Compressor) (data : Bytes) :
    8 * (pack c data).length ≤ 9 * data.length + 67 := by
  cases c with
  | deflate => exact Zlib.length_encode_le data
  | lz4 =>
    have h := Lz4.length_encode_le data
    rw [pack]
    omega

/-- The data of a frame after its identifier, told without engines. -/
def readBody (c : Compressor) (b : Bytes) : Except CompressionError Bytes :=
  let head := b.take 4
  if head.length < 4 then .error (missingSize c head.length)
  else
    let size := readSize c head
    if maxSize < size then .error (.sizeLimitExceeded size maxSize)
    else
      match unpack c size (b.drop 4) with
      | .error e => .error e
      | .ok data =>
        if data.length = size then .ok data else .error (.sizeMismatch size data.length)

/-- What is read of a body does not depend on what was read before. -/
theorem readBodyWith_eq (hs : s.Kept bound) (c : Compressor) (b : Bytes) :
    (readBodyWith s c b).1 = readBody c b ∧ (readBodyWith s c b).2.Kept bound := by
  rw [readBody, readBodyWith]
  dsimp only
  split
  · exact ⟨rfl, hs⟩
  split
  · exact ⟨rfl, hs⟩
  obtain ⟨hresult, hkept⟩ := unpackWith_eq hs c (readSize c (b.take 4)) (b.drop 4)
  rw [← hresult]
  revert hkept
  rcases unpackWith s c (readSize c (b.take 4)) (b.drop 4) with ⟨e | data, s'⟩ <;> intro hkept
  · exact ⟨rfl, hkept⟩
  dsimp only
  split
  · exact ⟨rfl, hkept⟩
  · exact ⟨rfl, hkept⟩

/-- **The data of a frame reads back** if it is no greater than a reader takes. -/
theorem readBody_pack (c : Compressor) (h : data.length ≤ maxSize) :
    readBody c (sizeBytes c data.length ++ pack c data) = .ok data := by
  have hlen := length_sizeBytes c data.length
  have hsize := readSize_sizeBytes c (Nat.le_trans h (by decide))
  rw [readBody, List.take_left' hlen, List.drop_left' hlen, hlen, if_neg (by decide)]
  simp only [hsize]
  rw [if_neg (Nat.not_lt.2 h), unpack_pack]
  simp only
  rw [if_pos trivial]

end Frame

namespace CompressorRegistry

open TagStore.Frame

variable {r : CompressorRegistry} {id : CompressorId} {data framed : Bytes} {bound : Nat}
  {s : DeflateCompressor}

/-- A compressor is registered under its own identifier. -/
theorem id_of_get? {c : Compressor} (h : r.get? id = some c) : c.id = id := by
  rw [get?] at h
  have hid := List.find?_some h
  exact of_decide_eq_true hid

/-- What is put into a frame does not depend on what was put into frames before. -/
theorem compressWith_eq (hs : s.Kept bound) (r : CompressorRegistry) (id : CompressorId)
    (data : Bytes) :
    (r.compressWith s id data).1 = r.compress id data ∧
      (r.compressWith s id data).2.Kept bound := by
  rw [compress, compressWith, compressWith]
  cases r.get? id with
  | none => exact ⟨rfl, hs⟩
  | some c =>
    refine ⟨?_, kept_write hs c data⟩
    obtain h | h := Nat.lt_or_ge maxDeclared data.length
    · simp only [write_of_long _ c h]
    · exact (write_eq hs c h).trans (write_eq (DeflateCompressor.kept_new _) c h).symm

theorem compress_of_get? {c : Compressor} (hc : r.get? id = some c)
    (h : data.length ≤ maxDeclared) :
    r.compress id data =
      .ok (magic ++ UInt8.ofNat id.val :: (sizeBytes c data.length ++ pack c data)) := by
  rw [compress, compressWith, hc, ← id_of_get? hc]
  exact write_eq (DeflateCompressor.kept_new _) c h

/-- Data whose size four bytes cannot hold is not put into a frame. -/
theorem compress_of_long {c : Compressor} (hc : r.get? id = some c)
    (h : maxDeclared < data.length) :
    r.compress id data = .error (.sizeLimitExceeded data.length maxDeclared) := by
  rw [compress, compressWith, hc]
  exact congrArg Prod.fst (write_of_long _ c h)

/-- Four bytes hold the size of data that was put into a frame. -/
theorem length_le_of_compress {c : Compressor} (hc : r.get? id = some c)
    (h : r.compress id data = .ok framed) : data.length ≤ maxDeclared := by
  apply Nat.le_of_not_lt
  intro hlong
  cases h.symm.trans (compress_of_long hc hlong)

theorem compress_eq_ok (h : r.compress id data = .ok framed) :
    ∃ c, r.get? id = some c ∧
      framed = magic ++ UInt8.ofNat id.val :: (sizeBytes c data.length ++ pack c data) := by
  cases hc : r.get? id with
  | none =>
    rw [compress, compressWith, hc] at h
    cases h
  | some c =>
    exact ⟨c, rfl, Except.ok.inj (h.symm.trans (compress_of_get? hc (length_le_of_compress hc h)))⟩

/-- The compressor that the third byte of a frame names. -/
def named? (r : CompressorRegistry) (id : UInt8) : Option Compressor :=
  (CompressorId.ofNat? id.toNat).bind r.get?

theorem named?_ofNat (r : CompressorRegistry) (id : CompressorId) :
    r.named? (UInt8.ofNat id.val) = r.get? id := by
  have hlt := id.isLt
  have h : (UInt8.ofNat id.val).toNat = id.val := by
    rw [UInt8.toNat_ofNat']
    omega
  rw [named?, h, CompressorId.ofNat?, dif_pos hlt, Option.bind_some]

/-- Bytes with the magic are the magic alone, or they name a compressor. -/
theorem eq_magic_or_cons {b : Bytes} (h : magic <+: b) :
    b = magic ∨ ∃ id body, b = magic ++ id :: body := by
  obtain ⟨rest, rfl⟩ := h
  cases rest with
  | nil => exact .inl (List.append_nil _)
  | cons id body => exact .inr ⟨id, body, rfl⟩

theorem decompressWith_of_not_frame (s : DeflateCompressor) (r : CompressorRegistry) {b : Bytes}
    (h : ¬ magic <+: b) : r.decompressWith s b = (.error .notCompressed, s) := by
  rw [decompressWith, Bool.eq_false_iff.2 fun hframe => h (isFrame_iff.1 hframe)]
  rfl

/-- A frame is read by the compressor that its third byte names. -/
theorem decompressWith_cons (s : DeflateCompressor) (r : CompressorRegistry) (id : UInt8)
    (body : Bytes) :
    r.decompressWith s (magic ++ id :: body) =
      match r.named? id with
      | none => (.error (.unknownCompressor id.toNat), s)
      | some c => readBodyWith s c body := by
  rw [decompressWith, isFrame_iff.2 (List.prefix_append _ _), List.drop_left]
  rfl

theorem decompress_cons (r : CompressorRegistry) (id : UInt8) (body : Bytes) :
    r.decompress (magic ++ id :: body) =
      match r.named? id with
      | none => .error (.unknownCompressor id.toNat)
      | some c => readBody c body := by
  rw [decompress, decompressWith_cons]
  cases r.named? id with
  | none => rfl
  | some c => exact (readBodyWith_eq (DeflateCompressor.kept_new _) c body).1

/-- What is read of a frame does not depend on what was read before. -/
theorem decompressWith_eq (hs : s.Kept bound) (r : CompressorRegistry) (b : Bytes) :
    (r.decompressWith s b).1 = r.decompress b ∧ (r.decompressWith s b).2.Kept bound := by
  by_cases hframe : magic <+: b
  · obtain rfl | ⟨id, body, rfl⟩ := eq_magic_or_cons hframe
    · exact ⟨rfl, hs⟩
    · rw [decompress_cons, decompressWith_cons]
      cases r.named? id with
      | none => exact ⟨rfl, hs⟩
      | some c => exact readBodyWith_eq hs c body
  · rw [decompress, decompressWith_of_not_frame _ r hframe, decompressWith_of_not_frame _ r hframe]
    exact ⟨rfl, hs⟩

/-- A frame starts as one. -/
theorem isFrame_of_compress (h : r.compress id data = .ok framed) : isFrame framed = true := by
  obtain ⟨c, -, rfl⟩ := compress_eq_ok h
  exact isFrame_iff.2 (List.prefix_append _ _)

theorem ne_nil_of_compress (h : r.compress id data = .ok framed) : framed ≠ [] := by
  rintro rfl
  exact absurd (isFrame_of_compress h) (by decide)

/-- **A registry reads the frames it writes.** -/
theorem decompress_compress (h : r.compress id data = .ok framed)
    (hsize : data.length ≤ maxSize) : r.decompress framed = .ok data := by
  obtain ⟨c, hc, rfl⟩ := compress_eq_ok h
  rw [decompress_cons, named?_ofNat, hc]
  exact readBody_pack c hsize

theorem decodePayload_compress (h : r.compress id data = .ok framed)
    (hsize : data.length ≤ maxSize) : r.decodePayload framed = .ok data := by
  rw [decodePayload, if_pos (isFrame_of_compress h), decompress_compress h hsize]

theorem length_of_compress (h : r.compress id data = .ok framed) :
    8 * framed.length ≤ 9 * data.length + 123 := by
  obtain ⟨c, -, rfl⟩ := compress_eq_ok h
  have hp := length_pack_le c data
  have hm : magic.length = 2 := rfl
  rw [List.length_append, List.length_cons, List.length_append, length_sizeBytes, hm]
  omega

/-- Engines of which at most `maxIdle` are kept, after any calls one after the other. -/
inductive Used (maxIdle : Nat) : DeflateCompressor → Prop
  | new : Used maxIdle (.new maxIdle)
  | compressed {s : DeflateCompressor} (r : CompressorRegistry) (id : CompressorId) (data : Bytes) :
    Used maxIdle s → Used maxIdle (r.compressWith s id data).2
  | decompressed {s : DeflateCompressor} (r : CompressorRegistry) (b : Bytes) :
    Used maxIdle s → Used maxIdle (r.decompressWith s b).2

/-- **Calls leave engines as good as new behind**, whatever came of them. -/
theorem Used.kept {maxIdle : Nat} (h : Used maxIdle s) : s.Kept maxIdle := by
  induction h with
  | new => exact DeflateCompressor.kept_new maxIdle
  | compressed r id data _ ih => exact (compressWith_eq ih r id data).2
  | decompressed r b _ ih => exact (decompressWith_eq ih r b).2

/-- **Every compressor reads back through its frame.** Data that is no greater than a reader takes
is put into a frame: the magic, the identifier, the size in the order of bytes of the compressor,
and the compressed form. The data is read from the frame again, and the same goes for every registry
that has the same under this identifier, whatever its engines have been used for. -/
theorem compress_reads_back {c : Compressor} (hc : r.get? id = some c)
    (hsize : data.length ≤ maxSize) :
    ∃ size body framed,
      framed = [0xAC, 0xEE, UInt8.ofNat id.val] ++ size ++ body ∧
      (id = .deflate ∧ size = Bytes.be32 data.length ∨
        id = .lz4 ∧ size = Bytes.le32 data.length) ∧
      r.compress id data = .ok framed ∧ r.decompress framed = .ok data ∧
      r.decodePayload framed = .ok data ∧
      ∀ r' : CompressorRegistry, r'.get? id = r.get? id →
        r'.compress id data = .ok framed ∧ r'.decompress framed = .ok data ∧
        r'.decodePayload framed = .ok data ∧
        ∀ maxIdle s, Used maxIdle s →
          (r'.compressWith s id data).1 = .ok framed ∧
          (r'.decompressWith s framed).1 = .ok data := by
  have hall : ∀ r' : CompressorRegistry, r'.get? id = r.get? id →
      r'.compress id data =
        .ok (magic ++ UInt8.ofNat id.val :: (sizeBytes c data.length ++ pack c data)) :=
    fun r' hr => compress_of_get? (hr.trans hc) (Nat.le_trans hsize (by decide))
  have hcompress := hall r rfl
  refine ⟨sizeBytes c data.length, pack c data, _, (List.append_assoc magic [_] _).symm, ?_,
    hcompress, decompress_compress hcompress hsize, decodePayload_compress hcompress hsize,
    fun r' hr => ⟨hall r' hr, decompress_compress (hall r' hr) hsize,
      decodePayload_compress (hall r' hr) hsize, fun maxIdle s hs => ⟨?_, ?_⟩⟩⟩
  · rw [← id_of_get? hc]
    cases c with
    | deflate => exact .inl ⟨rfl, rfl⟩
    | lz4 => exact .inr ⟨rfl, rfl⟩
  · exact (compressWith_eq hs.kept r' id data).1.trans (hall r' hr)
  · exact (decompressWith_eq hs.kept r' _).1.trans (decompress_compress (hall r' hr) hsize)

/-- A word under both compressors, each in a registry that knows no other; deflate is asked a second
time, with the engine that the first call has left. -/
theorem compress_reads_back_banana :
    let data : Bytes := [98, 97, 110, 97, 110, 97]
    let used := ((ofList [.deflate]).compressWith (.new 1) .deflate data).2
    (∃ body, (ofList [.deflate]).compress .deflate data =
        .ok ([0xAC, 0xEE, 0] ++ [0, 0, 0, 6] ++ body) ∧
      standard.decompress ([0xAC, 0xEE, 0] ++ [0, 0, 0, 6] ++ body) = .ok data ∧
      ((ofList [.deflate]).compressWith used .deflate data).1 =
        .ok ([0xAC, 0xEE, 0] ++ [0, 0, 0, 6] ++ body)) ∧
    ∃ body, (ofList [.lz4]).compress .lz4 data =
        .ok ([0xAC, 0xEE, 2] ++ [6, 0, 0, 0] ++ body) ∧
      standard.decodePayload ([0xAC, 0xEE, 2] ++ [6, 0, 0, 0] ++ body) = .ok data := by
  intro data used
  have hdeflate : (ofList [.deflate]).get? .deflate = some .deflate := by decide
  have hlz4 : (ofList [.lz4]).get? .lz4 = some .lz4 := by decide
  have hbig : Bytes.be32 data.length = [0, 0, 0, 6] := by decide
  have hlittle : Bytes.le32 data.length = [6, 0, 0, 0] := by decide
  have hsize : data.length ≤ maxSize := by decide
  constructor
  · obtain ⟨size, body, framed, hframed, ⟨-, hs⟩ | ⟨hid, -⟩, hcompress, -, -, hall⟩ :=
      compress_reads_back hdeflate hsize
    · obtain rfl : framed = [0xAC, 0xEE, 0] ++ [0, 0, 0, 6] ++ body := by
        rw [hframed, hs, hbig]
        rfl
      obtain ⟨-, -, -, hused⟩ := hall (ofList [.deflate]) rfl
      obtain ⟨-, hdecompress, -⟩ := hall standard (by decide)
      exact ⟨body, hcompress, hdecompress, (hused 1 used (.compressed _ _ _ .new)).1⟩
    · cases hid
  · obtain ⟨size, body, framed, hframed, ⟨hid, -⟩ | ⟨-, hs⟩, hcompress, -, -, hall⟩ :=
      compress_reads_back hlz4 hsize
    · cases hid
    · obtain rfl : framed = [0xAC, 0xEE, 2] ++ [6, 0, 0, 0] ++ body := by
        rw [hframed, hs, hlittle]
        rfl
      obtain ⟨-, -, hdecode, -⟩ := hall standard (by decide)
      exact ⟨body, hcompress, hdecode⟩

end CompressorRegistry

end TagStore
