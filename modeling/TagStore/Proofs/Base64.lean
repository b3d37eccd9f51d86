import TagStore.Base64
import TagStore.Wire.Field

/-!
# Base64 reads back

Symbols are written group by group, so what stands before a run does not matter to it
(`encode_group`). Reading what was written gives the bytes again (`decode?_encode`), and every byte
written is a sign of the alphabet or padding (`mem_encode`), so none of them ends a field, an item
or a line.
-/

namespace TagStore.Base64

/-! ## Groups -/

theorem encodeTo_append (acc acc' b : Bytes) :
    encodeTo (acc ++ acc') b = acc'.reverse ++ encodeTo acc b := by
  fun_induction encodeTo acc b with
  | case1 => simp [encodeTo]
  | case2 => simp only [encodeTo, List.reverse_cons, List.reverse_append, List.append_assoc]; rfl
  | case3 => simp only [encodeTo, List.reverse_cons, List.reverse_append, List.append_assoc]; rfl
  | case4 acc a b c r ih => rw [encodeTo, ← List.append_assoc, ih]

theorem encode_group (a b c : UInt8) (r : Bytes) :
    encode (a :: b :: c :: r) = group a b c ++ encode r := by
  rw [encode, encodeTo, List.append_nil]
  have h := encodeTo_append [] (group a b c).reverse r
  rwa [List.nil_append, List.reverse_reverse] at h

/-! ## Reading back -/

theorem ofNat_eq {x : UInt8} {n : Nat} (h : n % 256 = x.toNat) : UInt8.ofNat n = x := by
  rw [← UInt8.toNat_inj, UInt8.toNat_ofNat']
  exact h

/-- A number is put together again from its digits to the base 64, here three of them. -/
theorem sum_digits₃ (n : Nat) : n / 4096 * 4096 + n / 64 % 64 * 64 + n % 64 = n := by
  have h₁ := Nat.div_add_mod n 64
  have h₂ := Nat.div_add_mod (n / 64) 64
  rw [Nat.div_div_eq_div_mul] at h₂
  generalize n / 64 = d at *
  omega

/-- A number is put together again from its digits to the base 64, here four of them. -/
theorem sum_digits₄ (n : Nat) :
    n / 262144 * 262144 + n / 4096 % 64 * 4096 + n / 64 % 64 * 64 + n % 64 = n := by
  have h₁ := sum_digits₃ n
  have h₂ := Nat.div_add_mod (n / 4096) 64
  rw [Nat.div_div_eq_div_mul] at h₂
  grind

theorem decodeTo_group (acc r : Bytes) (a b c : UInt8) :
    decodeTo acc (group a b c ++ r) = decodeTo (c :: b :: a :: acc) r := by
  have ha := a.toNat_lt
  have hb := b.toNat_lt
  have hc := c.toNat_lt
  simp only [group, List.cons_append, List.nil_append]
  generalize hn : a.toNat * 65536 + b.toNat * 256 + c.toNat = n
  have hlt : n < 16777216 := by omega
  have h₁ : UInt8.ofNat n = c := ofNat_eq (by omega)
  have h₂ : UInt8.ofNat (n / 256) = b := ofNat_eq (by omega)
  have h₃ : UInt8.ofNat (n / 65536) = a := ofNat_eq (by omega)
  rw [decodeTo, value?_symbol _ (by omega), value?_symbol _ (by omega),
    value?_symbol _ (by omega), value?_symbol _ (by omega)]
  simp only [sum_digits₄, h₁, h₂, h₃]

theorem value?_pad : value? pad = none := by decide

theorem decodeTo_encode (acc b : Bytes) : decodeTo acc (encode b) = some (acc.reverse ++ b) := by
  match b with
  | [] => simp [encode, encodeTo, decodeTo]
  | [a] =>
    have ha := a.toNat_lt
    have h : UInt8.ofNat (a.toNat * 16 / 64 * 4 + a.toNat * 16 % 64 / 16) = a := ofNat_eq (by omega)
    have hm : a.toNat * 16 % 64 % 16 = 0 := by omega
    simp only [encode, encodeTo, List.reverse_cons, List.reverse_nil, List.nil_append,
      List.cons_append, decodeTo, value?_symbol (a.toNat * 16 / 64) (by omega),
      value?_symbol (a.toNat * 16 % 64) (by omega), value?_pad, h, hm, and_self, if_true]
  | [a, b] =>
    have ha := a.toNat_lt
    have hb := b.toNat_lt
    generalize hn : a.toNat * 1024 + b.toNat * 4 = n
    have hm : n % 64 % 4 = 0 := by omega
    have hsum : n / 4096 * 1024 + n / 64 % 64 * 16 + n % 64 / 4 = a.toNat * 256 + b.toNat := by
      have h := sum_digits₃ n
      grind
    have h₁ : UInt8.ofNat (a.toNat * 256 + b.toNat) = b := ofNat_eq (by omega)
    have h₂ : UInt8.ofNat ((a.toNat * 256 + b.toNat) / 256) = a := ofNat_eq (by omega)
    simp only [encode, encodeTo, hn, List.reverse_cons, List.reverse_nil, List.nil_append,
      List.cons_append, decodeTo, value?_symbol (n / 4096) (by omega),
      value?_symbol (n / 64 % 64) (by omega), value?_symbol (n % 64) (by omega), value?_pad, hsum,
      h₁, h₂, hm, and_self, if_true, List.append_assoc]
  | a :: b :: c :: r =>
    rw [encode_group, decodeTo_group, decodeTo_encode (c :: b :: a :: acc) r]
    simp

/-- **Reading undoes writing.** -/
theorem decode?_encode (b : Bytes) : decode? (encode b) = some b := by
  rw [decode?, decodeTo_encode]
  rfl

/-! ## The alphabet -/

theorem value?_isSome_symbol (n : Nat) (h : n < 64) : (value? (symbol n)).isSome := by
  rw [value?_symbol n h]
  rfl

/-- Every byte written is a sign of the alphabet or padding. -/
theorem mem_encode {x : UInt8} {b : Bytes} (h : x ∈ encode b) : (value? x).isSome ∨ x = pad := by
  match b with
  | [] => cases h
  | [a] =>
    have ha := a.toNat_lt
    simp only [encode, encodeTo, List.reverse_cons, List.reverse_nil, List.nil_append,
      List.cons_append, List.mem_cons, List.not_mem_nil, or_false] at h
    rcases h with rfl | rfl | rfl | rfl
    · exact .inl (value?_isSome_symbol _ (by omega))
    · exact .inl (value?_isSome_symbol _ (by omega))
    · exact .inr rfl
    · exact .inr rfl
  | [a, b] =>
    have ha := a.toNat_lt
    have hb := b.toNat_lt
    simp only [encode, encodeTo, List.reverse_cons, List.reverse_nil, List.nil_append,
      List.cons_append, List.mem_cons, List.not_mem_nil, or_false] at h
    rcases h with rfl | rfl | rfl | rfl
    · exact .inl (value?_isSome_symbol _ (by omega))
    · exact .inl (value?_isSome_symbol _ (by omega))
    · exact .inl (value?_isSome_symbol _ (by omega))
    · exact .inr rfl
  | a :: b :: c :: r =>
    rw [encode_group, List.mem_append] at h
    rcases h with h | h
    · have ha := a.toNat_lt
      have hb := b.toNat_lt
      have hc := c.toNat_lt
      simp only [group, List.mem_cons, List.not_mem_nil, or_false] at h
      rcases h with rfl | rfl | rfl | rfl <;> exact .inl (value?_isSome_symbol _ (by omega))
    · exact mem_encode h

/-- The absent field starts with a byte that is never written. -/
theorem parenthesis_notMem_encode (b : Bytes) : 40 ∉ encode b := fun h => by
  rcases mem_encode h with h | h <;> revert h <;> decide

open Wire in
theorem encode_ne_absent (b : Bytes) : encode b ≠ absent := fun h =>
  parenthesis_notMem_encode b (h ▸ List.mem_cons_self)

open Wire in
/-- No byte written ends an item, a field or a line. -/
theorem not_isDelimiter_of_mem_encode {x : UInt8} {b : Bytes} (h : x ∈ encode b) :
    isDelimiter x = false := by
  apply Bool.eq_false_iff.2
  intro hx
  simp only [isDelimiter, Bool.or_eq_true, beq_iff_eq] at hx
  rcases hx with (rfl | rfl) | rfl <;> rcases mem_encode h with h | h <;> revert h <;> decide

open Wire in
theorem delimiter_notMem_encode {x : UInt8} (hx : isDelimiter x = true) (b : Bytes) :
    x ∉ encode b := fun h => by
  rw [not_isDelimiter_of_mem_encode h] at hx
  cases hx

end TagStore.Base64
