import TagStore.Compression.Deflater
import TagStore.Compression.Inflater
import TagStore.Compression.Lz4

/-!
# Compression frames

A compressed payload is a frame: two magic bytes, the identifier of its compressor, the size of the
data in four bytes, and the compressed form. Bytes without the magic are no frame and stand for
themselves. A registry says which compressors a reader and writer know.

Deflate keeps its engines for reuse (`DeflateCompressor`), so each call on a registry leaves the
engines of that registry to the next one. What a registry makes of data and of frames is what it
makes of them with no engine idle.
-/

namespace TagStore

/-- The identifier of a compressor, one of four. -/
structure CompressorId where
  val : Nat
  isLt : val < 4
deriving Repr, DecidableEq

namespace CompressorId

/-- The identifier of a number, if there is one. -/
def ofNat? (n : Nat) : Option CompressorId := if h : n < 4 then some ⟨n, h⟩ else none

/-- The identifier of deflate, which is the default. -/
def deflate : CompressorId := ⟨0, by decide⟩

/-- The identifier that other clients give to LZF; nothing is registered under it here. -/
def lzf : CompressorId := ⟨1, by decide⟩

/-- The identifier of LZ4. -/
def lz4 : CompressorId := ⟨2, by decide⟩

/-- The text of an identifier. -/
def text (id : CompressorId) : String := toString id.val

end CompressorId

/-- A way to compress. -/
inductive Compressor
  | deflate
  | lz4
deriving Repr, DecidableEq

namespace Compressor

/-- The identifier of a compressor. -/
def id : Compressor → CompressorId
  | deflate => .deflate
  | lz4 => .lz4

/-- The name of a compressor. -/
def name : Compressor → String
  | deflate => "deflate"
  | lz4 => "lz4"

end Compressor

/-- The compressors that a client knows, at most one for each identifier. -/
structure CompressorRegistry where
  members : List Compressor
deriving Repr, DecidableEq

namespace CompressorRegistry

/-- A registry that knows no compressor. -/
def empty : CompressorRegistry := ⟨[]⟩

/-- The compressor registered under an identifier. -/
def get? (r : CompressorRegistry) (id : CompressorId) : Option Compressor :=
  r.members.find? (·.id = id)

/-- Registers a compressor under its identifier; gives also the one that it replaces. -/
def register (r : CompressorRegistry) (c : Compressor) :
    CompressorRegistry × Option Compressor :=
  (⟨c :: r.members.filter (·.id ≠ c.id)⟩, r.get? c.id)

/-- The registry that knows the given compressors. -/
def ofList (cs : List Compressor) : CompressorRegistry :=
  cs.foldl (fun r c => (r.register c).1) empty

/-- The registry of a client that is not told otherwise. -/
def standard : CompressorRegistry := ofList [.deflate, .lz4]

end CompressorRegistry

open Compression

/-- The engines that deflate keeps for reuse. -/
structure DeflateCompressor where
  compressors : EnginePool Deflater
  decompressors : EnginePool Inflater

namespace DeflateCompressor

/-- No engine is idle yet, and at most so many of each kind are to be. -/
def new (maxIdle : Nat) : DeflateCompressor := ⟨.empty maxIdle, .empty maxIdle⟩

/-- The engines of a registry that has not been used. -/
def unused : DeflateCompressor := new EnginePool.defaultMaxIdle

/-- Puts out the stream of data. -/
def deflate (s : DeflateCompressor) (data : Bytes) (o : Output) :
    Except CompressionError Bytes × DeflateCompressor :=
  let (result, compressors) := s.compressors.withEngine fun d p =>
    let finished := d.finish data o
    (finished.1, finished.2, p)
  (result, { s with compressors })

/-- Puts out the data of a stream. -/
def inflate (s : DeflateCompressor) (most : Nat) (stream : Bytes) (o : Output) :
    Except CompressionError Bytes × DeflateCompressor :=
  let (result, decompressors) := s.decompressors.withEngine fun d p =>
    let finished := d.finish most stream o
    (finished.1, finished.2, p)
  (result, { s with decompressors })

end DeflateCompressor

namespace Frame

/-- What a frame starts with. -/
def magic : Bytes := [0xAC, 0xEE]

/-- The greatest size of data that a reader takes: 256 MiB. -/
def maxSize : Nat := 268435456

/-- The greatest size that the four bytes of a frame can hold. -/
def maxDeclared : Nat := 4294967295

/-- Whether bytes start as a frame does. -/
def isFrame (b : Bytes) : Bool := magic.isPrefixOf b

/-- A size in the order of bytes that a compressor uses. -/
def sizeBytes (c : Compressor) (n : Nat) : Bytes :=
  match c with
  | .deflate => Bytes.be32 n
  | .lz4 => Bytes.le32 n

/-- The size that four bytes give in the order that a compressor uses. -/
def readSize (c : Compressor) (b : Bytes) : Nat :=
  match c with
  | .deflate => Bytes.readBE b
  | .lz4 => Bytes.readLE b

/-- The frame of data. Deflate starts with room for as many bytes as the data has; LZ4 has room for
the longest block. -/
def write (s : DeflateCompressor) (c : Compressor) (data : Bytes) :
    Except CompressionError Bytes × DeflateCompressor :=
  if maxDeclared < data.length then (.error (.sizeLimitExceeded data.length maxDeclared), s)
  else
    let head := magic ++ UInt8.ofNat c.id.val :: sizeBytes c data.length
    match c with
    | .deflate => s.deflate data ((Output.ofBytes head).reserve (max data.length Output.block))
    | .lz4 =>
      (Lz4.write data ((Output.ofBytes head).reserve (Lz4.maxOutputSize data.length)), s)

/-- The data of a compressed form that should have the given size. Deflate may produce another
size; LZ4 has room for that size only. -/
def unpackWith (s : DeflateCompressor) (c : Compressor) (size : Nat) (b : Bytes) :
    Except CompressionError Bytes × DeflateCompressor :=
  match c with
  | .deflate => s.inflate maxSize b ((Output.ofBytes []).reserve (max size Output.block))
  | .lz4 =>
    match Lz4.decode? size b with
    | some data => (.ok data, s)
    | none => (.error (.decompression "invalid LZ4 block"), s)

/-- The data of a compressed form. -/
def unpack (c : Compressor) (size : Nat) (b : Bytes) : Except CompressionError Bytes :=
  (unpackWith .unused c size b).1

/-- The complaint about a frame that ends within the size of its data. -/
def missingSize (c : Compressor) (n : Nat) : CompressionError :=
  match c with
  | .deflate => .truncated s!"deflate frame needs a 4-byte length prefix, got {n} bytes"
  | .lz4 => .truncated "LZ4 frame missing size prefix"

/-- The data of a frame after its identifier. -/
def readBodyWith (s : DeflateCompressor) (c : Compressor) (b : Bytes) :
    Except CompressionError Bytes × DeflateCompressor :=
  let head := b.take 4
  if head.length < 4 then (.error (missingSize c head.length), s)
  else
    let size := readSize c head
    if maxSize < size then (.error (.sizeLimitExceeded size maxSize), s)
    else
      match unpackWith s c size (b.drop 4) with
      | (.error e, s) => (.error e, s)
      | (.ok data, s) =>
        if data.length = size then (.ok data, s)
        else (.error (.sizeMismatch size data.length), s)

end Frame

namespace CompressorRegistry

/-- The frame of data under an identifier. -/
def compressWith (s : DeflateCompressor) (r : CompressorRegistry) (id : CompressorId)
    (data : Bytes) : Except CompressionError Bytes × DeflateCompressor :=
  match r.get? id with
  | none => (.error (.unknownCompressor id.val), s)
  | some c => Frame.write s c data

/-- The data of a frame. -/
def decompressWith (s : DeflateCompressor) (r : CompressorRegistry) (b : Bytes) :
    Except CompressionError Bytes × DeflateCompressor :=
  if !Frame.isFrame b then (.error .notCompressed, s)
  else
    match b.drop Frame.magic.length with
    | [] => (.error (.truncated "frame ends before compressor id"), s)
    | id :: body =>
      match (CompressorId.ofNat? id.toNat).bind r.get? with
      | none => (.error (.unknownCompressor id.toNat), s)
      | some c => Frame.readBodyWith s c body

/-- The frame that a registry makes of data. -/
def compress (r : CompressorRegistry) (id : CompressorId) (data : Bytes) :
    Except CompressionError Bytes :=
  (compressWith .unused r id data).1

/-- The data that a registry makes of a frame. -/
def decompress (r : CompressorRegistry) (b : Bytes) : Except CompressionError Bytes :=
  (decompressWith .unused r b).1

/-- The data of a payload: that of a frame, or the payload itself if it is no frame. -/
def decodePayload (r : CompressorRegistry) (b : Bytes) : Except CompressionError Bytes :=
  if Frame.isFrame b then r.decompress b else .ok b

/-- The data of the frame that a payload is, or nothing if it is no frame and stands for itself. -/
def frameData? (r : CompressorRegistry) (b : Bytes) : Except CompressionError (Option Bytes) :=
  if Frame.isFrame b then (r.decompress b).map some else .ok none

/-- A payload that is no frame is handed back as it is. -/
theorem decodePayload_eq (r : CompressorRegistry) (b : Bytes) :
    r.decodePayload b = (r.frameData? b).map (·.getD b) := by
  rw [decodePayload, frameData?]
  split
  · cases r.decompress b <;> rfl
  · rfl

end CompressorRegistry

end TagStore
