/-!
# Bytes

Runs of bytes: the UTF-8 form of a text, hexadecimal digits, and numbers of four bytes in either
order. Everything that travels or is stored is a `Bytes`.
-/

namespace TagStore

/-- A run of bytes. -/
abbrev Bytes := List UInt8

namespace Bytes

/-- The UTF-8 form of a text. -/
def ofString (s : String) : Bytes := s.toUTF8.data.toList

/-- The byte of an ASCII character. -/
def ofChar (c : Char) : UInt8 := UInt8.ofNat c.toNat

/-- The lowercase hexadecimal digit of a number below 16. -/
def hexDigit (n : Nat) : Char :=
  if n < 10 then Char.ofNat (48 + n) else Char.ofNat (87 + n)

/-- Two lowercase hexadecimal digits for each byte. -/
def toHex (b : Bytes) : String :=
  String.ofList (b.flatMap fun x => [hexDigit (x.toNat / 16), hexDigit (x.toNat % 16)])

/-- The value of a hexadecimal digit. -/
def hexValue? (c : Char) : Option Nat :=
  if '0' ≤ c ∧ c ≤ '9' then some (c.toNat - 48)
  else if 'a' ≤ c ∧ c ≤ 'f' then some (c.toNat - 87)
  else if 'A' ≤ c ∧ c ≤ 'F' then some (c.toNat - 55)
  else none

/-- The bytes that pairs of hexadecimal digits write, in front of `acc`, which holds those before,
the last first. -/
def ofHexTo (acc : Bytes) : List Char → Option Bytes
  | [] => some acc.reverse
  | [_] => none
  | a :: b :: r =>
    match hexValue? a, hexValue? b with
    | some a, some b => ofHexTo (UInt8.ofNat (a * 16 + b) :: acc) r
    | _, _ => none

/-- The bytes that pairs of hexadecimal digits write. -/
def ofHex? (s : String) : Option Bytes := ofHexTo [] s.toList

/-- The four bytes of a number below `2 ^ 32`, the greatest first. -/
def be32 (n : Nat) : Bytes :=
  [UInt8.ofNat (n / 16777216), UInt8.ofNat (n / 65536), UInt8.ofNat (n / 256), UInt8.ofNat n]

/-- The four bytes of a number below `2 ^ 32`, the least first. -/
def le32 (n : Nat) : Bytes :=
  [UInt8.ofNat n, UInt8.ofNat (n / 256), UInt8.ofNat (n / 65536), UInt8.ofNat (n / 16777216)]

/-- The number whose bytes are given, the greatest first. -/
def readBE (b : Bytes) : Nat := b.foldl (fun n x => n * 256 + x.toNat) 0

/-- The number whose bytes are given, the least first. -/
def readLE (b : Bytes) : Nat := b.foldr (fun x n => x.toNat + 256 * n) 0

@[simp] theorem length_be32 (n : Nat) : (be32 n).length = 4 := rfl

@[simp] theorem length_le32 (n : Nat) : (le32 n).length = 4 := rfl

/-- Reading undoes writing for every number that fits in four bytes. -/
theorem readBE_be32 {n : Nat} (h : n < 4294967296) : readBE (be32 n) = n := by
  simp [readBE, be32]
  omega

/-- Reading undoes writing for every number that fits in four bytes. -/
theorem readLE_le32 {n : Nat} (h : n < 4294967296) : readLE (le32 n) = n := by
  simp [readLE, le32]
  omega

end Bytes

end TagStore
