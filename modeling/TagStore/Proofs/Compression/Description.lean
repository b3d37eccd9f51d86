import TagStore.Compression.Token

/-!
# Descriptions of data

`Describes rule data i ts` says that the steps `ts` lead from the first `i` bytes of the data to
all of them, each within the rule. Whatever the table of proposals holds, `tokenize` finds such a
description (`describes_tokenize`), since a copy is taken only for bytes that were compared; and
copying them produces the data (`copyBack_extract`). Both compressors are proved by induction on it.
-/

namespace TagStore.Compression

variable {rule : CopyRule} {data : Array UInt8}

/-- The steps lead from the first `i` bytes of the data to all of them, within the rule. -/
inductive Describes (rule : CopyRule) (data : Array UInt8) : Nat → List Token → Prop
  | done : Describes rule data data.size []
  | literal {i : Nat} {ts : List Token} (h : i < data.size) :
    Describes rule data (i + 1) ts → Describes rule data i (.literal data[i] :: ts)
  | copy {i n d : Nat} {ts : List Token} :
    0 < d → d ≤ i → d ≤ rule.maxDistance → minCopy ≤ n → n ≤ rule.maxLength → i + n ≤ data.size →
    (∀ k < n, data.getD (i + k - d) 0 = data.getD (i + k) 0) →
    Describes rule data (i + n) ts → Describes rule data i (.copy n d :: ts)

/-! ## Finding a description -/

/-- The bytes that are found to agree do. -/
theorem agreement_spec (data : Array UInt8) (i j k n : Nat) :
    k ≤ agreement data i j k n ∧ agreement data i j k n ≤ k + n ∧
      ∀ t, k ≤ t → t < agreement data i j k n → data.getD (i + t) 0 = data.getD (j + t) 0 := by
  induction n generalizing k with
  | zero => exact ⟨Nat.le_refl k, Nat.le_refl k, fun t h₁ h₂ => absurd h₂ (Nat.not_lt.2 h₁)⟩
  | succ n ih =>
    rw [agreement]
    by_cases h : data.getD (i + k) 0 = data.getD (j + k) 0
    · obtain ⟨h₁, h₂, h₃⟩ := ih (k + 1)
      rw [if_pos h]
      refine ⟨by omega, by omega, ?_⟩
      intro t ht ht'
      rcases Nat.eq_or_lt_of_le ht with rfl | ht
      · exact h
      · exact h₃ t ht ht'
    · rw [if_neg h]
      exact ⟨Nat.le_refl k, by omega, fun t h₁ h₂ => absurd h₂ (Nat.not_lt.2 h₁)⟩

theorem copyAt_eq_some {i j n : Nat} (h : copyAt rule data i j = some n) :
    j < i ∧ i - j ≤ rule.maxDistance ∧ minCopy ≤ n ∧ n ≤ rule.maxLength ∧ i + n ≤ data.size ∧
      ∀ k < n, data.getD (j + k) 0 = data.getD (i + k) 0 := by
  rw [copyAt] at h
  split at h
  · rename_i hj
    dsimp only at h
    split at h
    · rename_i hn
      cases h
      obtain ⟨-, hle, hag⟩ :=
        agreement_spec data j i 0 (min rule.maxLength (data.size - rule.tail - i))
      rw [minCopy] at hn
      exact ⟨hj.1, hj.2, hn, by omega, by omega, fun k hk => hag k (Nat.zero_le k) hk⟩
    · cases h
  · cases h

/-- A description is found from every place on, whatever is proposed. -/
theorem describes_tokenizeFrom (rule : CopyRule) (data : Array UInt8) (i : Nat) (table : Array Nat)
    (acc : List Token) (hi : i ≤ data.size) :
    ∃ ts, tokenizeFrom rule data i table acc = acc.reverse ++ ts ∧ Describes rule data i ts := by
  have literal : ∀ (i : Nat) (h : i < data.size) (table : Array Nat) (acc : List Token),
      (∃ ts, tokenizeFrom rule data (i + 1) table (.literal data[i] :: acc) =
        (.literal data[i] :: acc).reverse ++ ts ∧ Describes rule data (i + 1) ts) →
      ∃ ts, tokenizeFrom rule data (i + 1) table (.literal data[i] :: acc) =
        acc.reverse ++ ts ∧ Describes rule data i ts := by
    rintro i h table acc ⟨ts, ht, hd⟩
    exact ⟨.literal data[i] :: ts, by rw [ht]; simp, .literal h hd⟩
  fun_induction tokenizeFrom rule data i table acc with
  | case1 i table acc h s _ table' hp ih => exact literal i h _ _ (ih h)
  | case2 i table acc h s _ table' j hp n hc hn ih =>
    obtain ⟨hj, hd, hmin, hmax, hend, hag⟩ := copyAt_eq_some hc
    obtain ⟨ts, ht, hts⟩ := ih hend
    refine ⟨.copy n (i - j) :: ts, by rw [ht]; simp, ?_⟩
    refine .copy (by omega) (by omega) hd hmin hmax hend (fun k hk => ?_) hts
    rw [show i + k - (i - j) = j + k by omega]
    exact hag k hk
  | case3 i table acc h s _ table' j hp n hc hn ih => exact literal i h _ _ (ih h)
  | case4 i table acc h s _ table' j hp hc ih => exact literal i h _ _ (ih h)
  | case5 i table acc h =>
    obtain rfl : i = data.size := by omega
    exact ⟨[], (List.append_nil _).symm, .done⟩

/-- **The steps that are found describe the data.** -/
theorem describes_tokenize (rule : CopyRule) (data : Bytes) :
    Describes rule data.toArray 0 (tokenize rule data) := by
  obtain ⟨ts, ht, hd⟩ := describes_tokenizeFrom rule data.toArray 0 (Array.replicate tableSize 0) []
    (Nat.zero_le _)
  rw [tokenize, ht]
  exact hd

/-! ## Producing the data -/

/-- Bytes that agree with those a distance back are copied from there. -/
theorem copyBack_extract {i n d : Nat} (hd : 0 < d) (hi : d ≤ i) (hn : i + n ≤ data.size)
    (hag : ∀ k < n, data.getD (i + k - d) 0 = data.getD (i + k) 0) :
    copyBack d (data.extract 0 i) n = data.extract 0 (i + n) := by
  induction n generalizing i with
  | zero => rfl
  | succ n ih =>
    have hlt : i < data.size := by omega
    have hsize : (data.extract 0 i).size = i := by
      rw [Array.size_extract]
      omega
    -- the byte that is copied stands within the part of the data that has been produced
    have hbyte : (data.extract 0 i).getD (i - d) 0 = data[i] := by
      have h := hag 0 (Nat.succ_pos n)
      rw [Nat.add_zero, ← Array.getElem_eq_getD (h := hlt)] at h
      rw [← h, ← Array.getElem_eq_getD (h := by omega), ← Array.getElem_eq_getD (h := by omega),
        Array.getElem_extract]
      congr 1
      omega
    have hpush : (data.extract 0 i).push data[i] = data.extract 0 (i + 1) := by
      rw [Array.push_extract_getElem hlt, Nat.zero_min]
    rw [copyBack, hsize, hbyte, hpush, ih (by omega) (by omega) fun k hk => ?_]
    · rw [Nat.add_right_comm, Nat.add_assoc]
    · have h := hag (k + 1) (by omega)
      rwa [show i + (k + 1) = i + 1 + k by omega] at h

end TagStore.Compression
