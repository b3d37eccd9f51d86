import TagStore.Bytes

/-!
# Bit strings

Bytes as bits, the least significant bit of each byte first, and numbers of a given width in
either order of bits.
-/

namespace TagStore.Compression

/-- A run of bits. -/
abbrev Bits := List Bool

namespace Bits

/-- The `width` low bits of a number, the least first. -/
def ofNat : (width : Nat) → Nat → Bits
  | 0, _ => []
  | w + 1, n => (n % 2 == 1) :: ofNat w (n / 2)

/-- The number whose bits are given, the least first. -/
def toNat (b : Bits) : Nat := b.foldr (fun x n => x.toNat + 2 * n) 0

/-- The bits of a run of bytes. -/
def ofBytes (b : Bytes) : Bits := b.flatMap fun x => ofNat 8 x.toNat

/-- The bytes that bits fill, the last one completed with zeros; `acc` holds the bytes before, the
last first. -/
def toBytesFrom (acc : Bytes) : Bits → Bytes
  | a :: b :: c :: d :: e :: f :: g :: h :: r =>
    toBytesFrom (UInt8.ofNat (toNat [a, b, c, d, e, f, g, h]) :: acc) r
  | [] => acc.reverse
  | r => (UInt8.ofNat (toNat r) :: acc).reverse

/-- The bytes that bits fill, the last one completed with zeros. -/
def toBytes (b : Bits) : Bytes := toBytesFrom [] b

@[simp] theorem length_ofNat (w n : Nat) : (ofNat w n).length = w := by
  induction w generalizing n with
  | zero => rfl
  | succ w ih => simp [ofNat, ih]

/-- A number that fits in the width reads back. -/
theorem toNat_ofNat {w n : Nat} (h : n < 1 <<< w) : toNat (ofNat w n) = n := by
  induction w generalizing n with
  | zero =>
    rw [Nat.shiftLeft_zero] at h
    obtain rfl : n = 0 := by omega
    rfl
  | succ w ih =>
    have hn : n / 2 < 1 <<< w := by
      rw [Nat.shiftLeft_succ] at h
      omega
    have := ih hn
    simp only [toNat] at this
    simp only [ofNat, toNat, List.foldr_cons, this]
    rcases Nat.mod_two_eq_zero_or_one n with h0 | h0 <;> simp [h0] <;> omega

end Bits

end TagStore.Compression
