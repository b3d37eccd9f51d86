import TagStore.Compression.Zlib
import TagStore.Proofs.Compression.Deflate

/-!
# Zlib streams read back

The check sum fits in its four bytes (`checksum_lt`), so a stream reads back (`decode_encode`) if
there is room for its data.
-/

namespace TagStore.Compression.Zlib

theorem foldl_checksum_lt (data : Bytes) {a b : Nat} (ha : a < modulus) (hb : b < modulus) :
    (data.foldl (fun (a, b) x => let a := (a + x.toNat) % modulus; (a, (b + a) % modulus))
        (a, b)).1 < modulus ∧
      (data.foldl (fun (a, b) x => let a := (a + x.toNat) % modulus; (a, (b + a) % modulus))
        (a, b)).2 < modulus := by
  have hm : 0 < modulus := by decide
  induction data generalizing a b with
  | nil => exact ⟨ha, hb⟩
  | cons x data ih => exact ih (Nat.mod_lt _ hm) (Nat.mod_lt _ hm)

/-- The check sum fits in four bytes. -/
theorem checksum_lt (data : Bytes) : checksum data < 4294967296 := by
  obtain ⟨ha, hb⟩ := foldl_checksum_lt data (a := 1) (b := 0) (by decide) (by decide)
  rw [modulus] at ha hb
  rw [checksum]
  exact Nat.lt_of_le_of_lt (Nat.add_le_add (Nat.mul_le_mul_right _ (Nat.le_of_lt_succ hb))
    (Nat.le_of_lt_succ ha)) (by decide)

/-- What is read of a stream whose check sum fits. -/
theorem decode_of_inflate {limit : Nat} {r rest : Bytes} {out : Array UInt8}
    (h : Inflate.decode limit r = .ok (out, rest)) (hlen : (rest.take 4).length = 4)
    (hsum : Bytes.readBE (rest.take 4) = checksum out.toList) :
    decode limit (0x78 :: 0x01 :: r) = .ok out.toList := by
  rw [decode, if_pos (by decide), h]
  simp only [bind, Except.bind, hlen]
  rw [if_neg (by decide), if_pos hsum]

/-- **A stream reads back** if there is room for its data. -/
theorem decode_encode {data : Bytes} {limit : Nat} (h : data.length ≤ limit) :
    decode limit (encode data) = .ok data :=
  decode_of_inflate (Inflate.decode_encode h _) rfl (Bytes.readBE_be32 (checksum_lt data))

theorem length_encode_le (data : Bytes) : 8 * (encode data).length ≤ 9 * data.length + 67 := by
  have h := Deflate.length_encode_le data
  rw [encode, List.length_cons, List.length_cons, List.length_append, Bytes.length_be32]
  omega

end TagStore.Compression.Zlib
