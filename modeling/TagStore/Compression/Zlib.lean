import TagStore.Compression.Inflate

/-!
# Zlib streams

The compressed form between a header of two bytes and a check sum of four. The header must name the
one method there is, a window of at most 32768 bytes and no preset dictionary, and be divisible by
31; the check sum must be that of the data. What follows the stream is not read.
-/

namespace TagStore.Compression.Zlib

/-- The prime modulus of the check sum. -/
def modulus : Nat := 65521

/-- The check sum of data: the sum of its bytes plus one, and the sum of those sums. -/
def checksum (data : Bytes) : Nat :=
  let (a, b) := data.foldl
    (fun (a, b) x => let a := (a + x.toNat) % modulus; (a, (b + a) % modulus)) (1, 0)
  b * 65536 + a

/-- The stream of data. -/
def encode (data : Bytes) : Bytes :=
  0x78 :: 0x01 :: (Deflate.encode data ++ Bytes.be32 (checksum data))

/-- Whether two bytes are a header. -/
def isHeader (method flags : UInt8) : Bool :=
  (method.toNat * 256 + flags.toNat) % 31 == 0 && flags.toNat / 32 % 2 == 0 &&
    method.toNat % 16 == 8 && method.toNat / 16 ≤ 7

/-- The data of at most `limit` bytes whose stream stands at the head. -/
def decode (limit : Nat) : Bytes → Except Inflate.Halt Bytes
  | method :: flags :: r =>
    if isHeader method flags then do
      let (out, rest) ← Inflate.decode limit r
      let sum := rest.take 4
      if sum.length < 4 then .error ⟨.needsInput, out⟩
      else if Bytes.readBE sum = checksum out.toList then .ok out.toList
      else .error ⟨.invalid, out⟩
    else .error ⟨.invalid, #[]⟩
  | _ => .error ⟨.needsInput, #[]⟩

end TagStore.Compression.Zlib
