import TagStore.Proofs.Text.Trimming
import TagStore.Text.Decimal

/-!
# Decimal numbers in texts

Digits are read one by one, and the reading stops at the first one that passes the greatest value.
As a number only grows with more digits (`le_ofDigitChars`), a run of digits is read just if the
whole of it writes no more than that (`digitsFrom_eq_some_iff`).
-/

namespace TagStore.Text

variable {limit n m : Nat} {c : Char} {cs : List Char}

theorem isDigit_iff : isDigit c = true ↔ 48 ≤ c.toNat ∧ c.toNat ≤ 57 := by
  simp only [isDigit, Bool.and_eq_true, decide_eq_true_eq, Char.le_def, UInt32.le_iff_toNat_le]
  rfl

theorem isBlank_eq_false_of_isDigit (h : isDigit c = true) : isBlank c = false := by
  rw [isDigit_iff] at h
  exact isBlank_eq_false_of_le (by omega) (by omega)

theorem toNat_of_mem_toDigits (h : c ∈ Nat.toDigits 10 n) :
    48 ≤ c.toNat ∧ c.toNat ≤ 57 := by
  have hd := Nat.isDigit_of_mem_toDigits (by decide) (by decide) h
  simp only [Char.isDigit, Bool.and_eq_true, decide_eq_true_eq, UInt32.le_iff_toNat_le] at hd
  exact hd

theorem le_ofDigitChars (cs : List Char) (n : Nat) : n ≤ Nat.ofDigitChars 10 cs n := by
  induction cs generalizing n with
  | nil => exact Nat.le_refl n
  | cons c cs ih =>
    rw [Nat.ofDigitChars_cons]
    exact Nat.le_trans (by omega) (ih _)

/-- **Digits are read just if what they write in all does not pass the greatest value.** -/
theorem digitsFrom_eq_some_iff (hn : n ≤ limit) :
    digitsFrom limit n cs = some m ↔
      (∀ c ∈ cs, isDigit c) ∧ Nat.ofDigitChars 10 cs n = m ∧ m ≤ limit := by
  induction cs generalizing n with
  | nil =>
    rw [digitsFrom, Option.some.injEq]
    exact ⟨fun h => ⟨nofun, h, h ▸ hn⟩, fun h => h.2.1⟩
  | cons c cs ih =>
    rw [digitsFrom, digit?, List.forall_mem_cons, Nat.ofDigitChars_cons,
      show 10 * n + (c.toNat - '0'.toNat) = n * 10 + (c.toNat - 48) by rw [Nat.mul_comm]; rfl]
    by_cases hc : isDigit c = true
    · simp only [if_pos hc]
      by_cases hnext : n * 10 + (c.toNat - 48) ≤ limit
      · rw [if_pos hnext, ih hnext]
        simp [hc]
      · -- more digits do not bring the value back
        rw [if_neg hnext]
        refine ⟨nofun, fun ⟨_, hvalue, hm⟩ => absurd ?_ hnext⟩
        exact (hvalue ▸ le_ofDigitChars cs _).trans hm
    · simp [hc]

/-- There is no white space in a number. -/
theorem trimChars_of_unsigned? (h : unsigned? limit cs = some n) : trimChars cs = cs := by
  have hdigits : ∀ {ds : List Char}, digitsFrom limit 0 ds = some n → ∀ c ∈ ds, isBlank c = false :=
    fun hds c hc => isBlank_eq_false_of_isDigit
      (((digitsFrom_eq_some_iff (Nat.zero_le _)).1 hds).1 c hc)
  refine trimChars_eq_self ?_
  rw [unsigned?.eq_def] at h
  split at h
  · cases h
  · exact List.forall_mem_cons.2 ⟨by decide, hdigits h⟩
  · exact hdigits h

end TagStore.Text
