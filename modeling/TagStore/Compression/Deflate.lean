import TagStore.Compression.Token
import TagStore.Compression.Bits

/-!
# Deflate

The compressed form of data as one block of literals and copies in the fixed prefix code, and the
tables of lengths and distances that reading shares with writing. A length or distance is written
as the symbol of the greatest base that does not pass it, followed by the excess in the extra bits
of that symbol.
-/

namespace TagStore.Compression.Deflate

/-- The base lengths of the symbols from 257 on, with their extra bits. -/
def lengthBases : List (Nat × Nat) :=
  [(3, 0), (4, 0), (5, 0), (6, 0), (7, 0), (8, 0), (9, 0), (10, 0), (11, 1), (13, 1), (15, 1),
   (17, 1), (19, 2), (23, 2), (27, 2), (31, 2), (35, 3), (43, 3), (51, 3), (59, 3), (67, 4),
   (83, 4), (99, 4), (115, 4), (131, 5), (163, 5), (195, 5), (227, 5), (258, 0)]

/-- The base distances of the symbols from 0 on, with their extra bits. -/
def distanceBases : List (Nat × Nat) :=
  [(1, 0), (2, 0), (3, 0), (4, 0), (5, 1), (7, 1), (9, 2), (13, 2), (17, 3), (25, 3), (33, 4),
   (49, 4), (65, 5), (97, 5), (129, 6), (193, 6), (257, 7), (385, 7), (513, 8), (769, 8),
   (1025, 9), (1537, 9), (2049, 10), (3073, 10), (4097, 11), (6145, 11), (8193, 12), (12289, 12),
   (16385, 13), (24577, 13)]

/-- The last of the bases that does not pass `n`, with its place. -/
def baseOf (bases : List (Nat × Nat)) (n : Nat) : Nat × Nat × Nat :=
  (bases.zipIdx.foldl (fun found ((base, extra), i) =>
    if base ≤ n then (i, base, extra) else found) (0, 0, 0))

/-- The symbol that ends a block. -/
def endOfBlock : Nat := 256

/-- A code of `width` bits, the greatest bit first. -/
def code (width n : Nat) : Bits := (Bits.ofNat width n).reverse

/-- The fixed code of a literal, length or end symbol. -/
def fixedCode (symbol : Nat) : Bits :=
  if symbol < 144 then code 8 (48 + symbol)
  else if symbol < 256 then code 9 (400 + (symbol - 144))
  else if symbol < 280 then code 7 (symbol - 256)
  else code 8 (192 + (symbol - 280))

/-- The code lengths of the fixed code for literals, lengths and the end. -/
def fixedLengths : List Nat :=
  List.replicate 144 8 ++ List.replicate 112 9 ++ List.replicate 24 7 ++ List.replicate 8 8

/-- The code lengths of the fixed code for distances. -/
def fixedDistances : List Nat := List.replicate 32 5

/-- The bits of one step of a description. -/
def tokenBits : Token → Bits
  | .literal b => fixedCode b.toNat
  | .copy n d =>
    let (i, lengthBase, lengthExtra) := baseOf lengthBases n
    let (j, distanceBase, distanceExtra) := baseOf distanceBases d
    fixedCode (257 + i) ++ Bits.ofNat lengthExtra (n - lengthBase) ++ code 5 j ++
      Bits.ofNat distanceExtra (d - distanceBase)

/-- The copies that the format can write. -/
def copyRule : CopyRule := ⟨258, 32768, 0⟩

/-- One final block in the fixed code. -/
def blockBits (tokens : List Token) : Bits :=
  [true, true, false] ++ tokens.flatMap tokenBits ++ fixedCode endOfBlock

/-- The compressed form of data. -/
def encode (data : Bytes) : Bytes := Bits.toBytes (blockBits (tokenize copyRule data))

end TagStore.Compression.Deflate
