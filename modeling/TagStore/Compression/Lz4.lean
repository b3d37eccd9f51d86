import TagStore.Compression.Error
import TagStore.Compression.Output
import TagStore.Compression.Token

/-!
# LZ4 blocks

Data as sequences of literals and one copy each. A sequence starts with a byte that holds both
lengths, four bits each; a length of fifteen or more goes on in further bytes. The last sequence
has literals only. Writing keeps the last bytes of the data literal, as the format asks; reading
does not insist on it. Room for a block is set aside before it is written, as much as the longest
block of so much data takes.
-/

namespace TagStore.Compression.Lz4

/-- The bytes that continue a length of fifteen or more. -/
def lengthBytes (n : Nat) : Bytes :=
  if n < 15 then []
  else List.replicate ((n - 15) / 255) 255 ++ [UInt8.ofNat ((n - 15) % 255)]

/-- A sequence: literals, then a copy of `n` bytes from `d` back. -/
def sequenceBytes (literals : Bytes) (n d : Nat) : Bytes :=
  UInt8.ofNat (min literals.length 15 * 16 + min (n - minCopy) 15) ::
    (lengthBytes literals.length ++ literals ++ [UInt8.ofNat d, UInt8.ofNat (d / 256)] ++
      lengthBytes (n - minCopy))

/-- The last sequence. -/
def lastBytes (literals : Bytes) : Bytes :=
  UInt8.ofNat (min literals.length 15 * 16) :: (lengthBytes literals.length ++ literals)

/-- The bytes of a description. `literals` holds the literals since the last copy, the last first,
and `acc` the bytes before them, the last first. -/
def encodeFrom (acc literals : Bytes) : List Token → Bytes
  | [] => acc.reverse ++ lastBytes literals.reverse
  | .literal b :: r => encodeFrom acc (b :: literals) r
  | .copy n d :: r =>
    encodeFrom ((sequenceBytes literals.reverse n d).reverse ++ acc) [] r

/-- The copies that the format can write; the last twelve bytes stay literal. -/
def copyRule : CopyRule := ⟨1073741824, 65535, 12⟩

/-- The block of data. -/
def encode (data : Bytes) : Bytes := encodeFrom [] [] (tokenize copyRule data)

/-- The room that is set aside for the block of `n` bytes. -/
def maxOutputSize (n : Nat) : Nat := 16 + 4 + n * 110 / 100

/-- The complaint about a block for which there is no room. -/
def outputTooSmall : CompressionError :=
  .compression ("LZ4 compression failed: output is too small for the compressed data, " ++
    "use get_maximum_output_size to reserve enough space")

/-- Puts out the block of data. -/
def write (data : Bytes) (o : Output) : Except CompressionError Bytes :=
  let block := encode data
  if o.room < block.length then .error outputTooSmall else .ok (o.fill block).bytes

/-- The length that starts with `n` and, from fifteen on, goes on in further bytes: each 255 asks
for one more. -/
def readMore (n : Nat) : Bytes → Option (Nat × Bytes)
  | [] => none
  | b :: r => if b = 255 then readMore (n + 255) r else some (n + b.toNat, r)

/-- The length whose four bits are `n`. -/
def readLength (n : Nat) (b : Bytes) : Option (Nat × Bytes) :=
  if n = 15 then readMore 15 b else some (n, b)

/-- Reads sequences up to the end of the block. Each takes at least one byte, so the number of
bytes bounds the sequences. -/
def decodeFrom (limit fuel : Nat) (out : Array UInt8) (b : Bytes) : Option (Array UInt8) :=
  match fuel, b with
  | fuel + 1, token :: r =>
    match readLength (token.toNat / 16) r with
    | none => none
    | some (n, r) =>
      let literals := r.take n
      if literals.length < n ∨ limit < out.size + n then none
      else
        let out := out ++ literals.toArray
        match r.drop n with
        | [] => some out
        | [_] => none
        | low :: high :: r =>
          let d := low.toNat + 256 * high.toNat
          match readLength (token.toNat % 16) r with
          | none => none
          | some (n, r) =>
            let n := n + minCopy
            if d = 0 ∨ out.size < d ∨ limit < out.size + n then none
            else decodeFrom limit fuel (copyBack d out n) r
  | _, _ => none

/-- The data of at most `limit` bytes that a block holds. -/
def decode? (limit : Nat) (b : Bytes) : Option Bytes :=
  (decodeFrom limit b.length #[] b).map Array.toList

end TagStore.Compression.Lz4
