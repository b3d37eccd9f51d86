import TagStore.Compression.Bits

/-!
# Bits of bytes

Bits that fill bytes read back from them, with fewer than eight zeros after the last one
(`ofBytes_toBytes`).
-/

namespace TagStore.Compression.Bits

theorem ofNat_zero (w : Nat) : ofNat w 0 = List.replicate w false := by
  induction w with
  | zero => rfl
  | succ w ih => rw [ofNat, Nat.zero_div, ih, List.replicate_succ]; rfl

/-- The number of a run of bits has these bits, and zeros above them. -/
theorem ofNat_toNat (b : Bits) (k : Nat) :
    ofNat (b.length + k) (toNat b) = b ++ List.replicate k false := by
  induction b with
  | nil => rw [List.length_nil, Nat.zero_add]; exact ofNat_zero k
  | cons x b ih =>
    have hn : toNat (x :: b) = x.toNat + 2 * toNat b := rfl
    have hx : x.toNat < 2 := Bool.toNat_lt x
    have hmod : ((x.toNat + 2 * toNat b) % 2 == 1) = x := by
      rw [Nat.add_mul_mod_self_left, Nat.mod_eq_of_lt hx]
      cases x <;> rfl
    have hdiv : (x.toNat + 2 * toNat b) / 2 = toNat b := by omega
    rw [hn, List.length_cons, Nat.add_right_comm, ofNat, hmod, hdiv, ih, List.cons_append]

theorem toNat_lt (b : Bits) : toNat b < 1 <<< b.length := by
  induction b with
  | nil => decide
  | cons x b ih =>
    have hn : toNat (x :: b) = x.toNat + 2 * toNat b := rfl
    have hx : x.toNat < 2 := Bool.toNat_lt x
    rw [hn, List.length_cons, Nat.shiftLeft_succ]
    omega

/-- At most eight bits read back from the byte that they fill. -/
theorem ofNat_toNat_ofNat {b : Bits} (h : b.length ≤ 8) :
    ofNat 8 (UInt8.ofNat (toNat b)).toNat = b ++ List.replicate (8 - b.length) false := by
  have hle : 1 <<< b.length ≤ 1 <<< 8 := by
    rw [Nat.shiftLeft_eq, Nat.shiftLeft_eq]
    exact Nat.mul_le_mul_left 1 (Nat.pow_le_pow_right (by decide) h)
  have hlt : toNat b < 256 := Nat.lt_of_lt_of_le (toNat_lt b) hle
  have hk : b.length + (8 - b.length) = 8 := by omega
  rw [UInt8.toNat_ofNat', Nat.mod_eq_of_lt hlt]
  exact (congrArg (ofNat · (toNat b)) hk).symm.trans (ofNat_toNat b _)

@[simp] theorem ofBytes_append (b c : Bytes) : ofBytes (b ++ c) = ofBytes b ++ ofBytes c :=
  List.flatMap_append

theorem length_ofBytes (b : Bytes) : (ofBytes b).length = 8 * b.length := by
  induction b with
  | nil => rfl
  | cons x b ih =>
    have h : ofBytes (x :: b) = ofNat 8 x.toNat ++ ofBytes b := rfl
    rw [h, List.length_append, length_ofNat, ih, List.length_cons]
    omega

theorem ofBytes_toBytesFrom (acc : Bytes) (b : Bits) :
    ∃ k < 8, ofBytes (toBytesFrom acc b) =
      ofBytes acc.reverse ++ b ++ List.replicate k false := by
  fun_induction toBytesFrom acc b with
  | case1 acc a b c d e f g h r ih =>
    obtain ⟨k, hk, ih⟩ := ih
    have hx : ofBytes [UInt8.ofNat (toNat [a, b, c, d, e, f, g, h])] =
        [a, b, c, d, e, f, g, h] := by
      have := ofNat_toNat_ofNat (b := [a, b, c, d, e, f, g, h]) (Nat.le_refl 8)
      simpa [ofBytes] using this
    refine ⟨k, hk, ?_⟩
    rw [ih, List.reverse_cons, ofBytes_append, hx]
    simp
  | case2 acc => exact ⟨0, by decide, by simp⟩
  | case3 acc b h₁ h₂ =>
    -- what does not start with eight bits has fewer
    have hlen : b.length < 8 := by
      apply Nat.lt_of_not_le
      intro hle
      match b, hle with
      | a :: b :: c :: d :: e :: f :: g :: h :: r, _ => exact h₁ a b c d e f g h r rfl
    have hx : ofBytes [UInt8.ofNat (toNat b)] = b ++ List.replicate (8 - b.length) false := by
      have := ofNat_toNat_ofNat (Nat.le_of_lt hlen)
      simpa [ofBytes] using this
    have hpos : 0 < b.length := List.length_pos_iff.2 h₂
    refine ⟨8 - b.length, by omega, ?_⟩
    rw [List.reverse_cons, ofBytes_append, hx, List.append_assoc]

/-- **Bits read back from the bytes that they fill**, with fewer than eight zeros after them. -/
theorem ofBytes_toBytes (b : Bits) :
    ∃ k < 8, ofBytes (toBytes b) = b ++ List.replicate k false := by
  obtain ⟨k, hk, h⟩ := ofBytes_toBytesFrom [] b
  exact ⟨k, hk, h⟩

theorem length_toBytes_le (b : Bits) : 8 * (toBytes b).length ≤ b.length + 7 := by
  obtain ⟨k, hk, h⟩ := ofBytes_toBytes b
  have := congrArg List.length h
  rw [length_ofBytes, List.length_append, List.length_replicate] at this
  omega

end TagStore.Compression.Bits
