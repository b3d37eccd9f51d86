import Mathlib.Data.Nat.Digits.Defs
import TagStore.Proofs.Wire.Fields
import TagStore.Proofs.Wire.NextLine

/-!
# Numbers in fields

A field of decimal digits stands for a number: the value of its digits (`Wire.decimal`), in which
leading zeros count for nothing and no digits at all make 0. A reader adds digit by digit and stops
at the first one that passes 64 bits, or at a byte that is no digit (`Wire.numberFrom_append`). As
the value only grows with more digits, this comes to the same as looking at the value of the whole
field (`Wire.number_eq_ok_iff`); and where there is no number the complaint names the true cause
(`Wire.number_eq_error`).

The field is taken from the reply all the same, whether it is a number or not
(`Reading.number_exact`).
-/

namespace TagStore

open Wire

namespace Wire

variable {field f ds : Bytes} {n : Nat}

/-- Whether a byte is a decimal digit. -/
def IsDigit (b : UInt8) : Prop := 48 ≤ b ∧ b ≤ 57

instance (b : UInt8) : Decidable (IsDigit b) := inferInstanceAs (Decidable (_ ∧ _))

/-- The value of decimal digits, the last of which counts the ones. -/
def decimal (ds : Bytes) : Nat := Nat.ofDigits 10 (ds.reverse.map fun b => b.toNat - 48)

/-- The first digit counts most. -/
theorem decimal_cons (b : UInt8) (ds : Bytes) :
    decimal (b :: ds) = (b.toNat - 48) * 10 ^ ds.length + decimal ds := by
  rw [decimal, List.reverse_cons, List.map_append, Nat.ofDigits_append, List.length_map,
    List.length_reverse, List.map_singleton, Nat.ofDigits_singleton, decimal, Nat.mul_comm,
    Nat.add_comm]

/-- What is wrong with a field that is no number: what its first digits write has more than 64 bits,
or else a byte that is no digit follows them. -/
inductive Misread (f : Bytes) : String → Prop
  | great {ds rest : Bytes} : f = ds ++ rest → (∀ b ∈ ds, IsDigit b) → 2 ^ 64 ≤ decimal ds →
    Misread f "number overflows u64"
  | strange {ds rest : Bytes} {b : UInt8} : f = ds ++ b :: rest → (∀ d ∈ ds, IsDigit d) →
    decimal ds < 2 ^ 64 → ¬IsDigit b →
    Misread f
      s!"expected a number, found byte 0x{Bytes.toHex [b]} in {Text.quote (Utf8.lossy f)}"

/-- **Digits are read one by one, as far as 64 bits go**, and then what follows them. -/
theorem numberFrom_append (hds : ∀ b ∈ ds, IsDigit b) (hn : n ≤ Text.maxU64) (rest : Bytes) :
    numberFrom field n (ds ++ rest) =
      if n * 10 ^ ds.length + decimal ds ≤ Text.maxU64 then
        numberFrom field (n * 10 ^ ds.length + decimal ds) rest
      else .error (.format "number overflows u64") := by
  induction ds generalizing n with
  | nil => simp [decimal, hn]
  | cons b ds ih =>
    obtain ⟨hb, hds⟩ := List.forall_mem_cons.1 hds
    have hvalue : n * 10 ^ (b :: ds).length + decimal (b :: ds) =
        (n * 10 + (b.toNat - 48)) * 10 ^ ds.length + decimal ds := by
      rw [decimal_cons, List.length_cons]
      ring
    rw [hvalue, List.cons_append, numberFrom, if_pos (show 48 ≤ b ∧ b ≤ 57 from hb)]
    by_cases hnext : n * 10 + (b.toNat - 48) ≤ Text.maxU64
    · simp only [if_pos hnext]
      exact ih hds hnext
    · -- more digits do not bring the value back
      have hgrows : n * 10 + (b.toNat - 48) ≤
          (n * 10 + (b.toNat - 48)) * 10 ^ ds.length + decimal ds :=
        (Nat.le_mul_of_pos_right _ (by positivity)).trans (Nat.le_add_right _ _)
      simp only [if_neg hnext]
      rw [if_neg fun h => hnext (hgrows.trans h)]

/-- What a field of digits comes to, and one in which a byte that is no digit follows them. -/
theorem number_append (hds : ∀ b ∈ ds, IsDigit b) (rest : Bytes) :
    number (ds ++ rest) =
      if decimal ds < 2 ^ 64 then numberFrom (ds ++ rest) (decimal ds) rest
      else .error (.format "number overflows u64") := by
  have hbound : decimal ds ≤ Text.maxU64 ↔ decimal ds < 2 ^ 64 := Nat.lt_succ_iff.symm
  rw [number, numberFrom_append hds (by decide), Nat.zero_mul, Nat.zero_add]
  simp only [hbound]

/-- A field without digits only, cut where the first other byte stands. -/
theorem exists_strange (h : ¬∀ b ∈ f, IsDigit b) :
    ∃ ds b rest, f = ds ++ b :: rest ∧ (∀ d ∈ ds, IsDigit d) ∧ ¬IsDigit b := by
  have hne : f.dropWhile (IsDigit ·) ≠ [] := fun hnil =>
    h fun b hb => by simpa using List.dropWhile_eq_nil_iff.1 hnil b hb
  obtain ⟨b, rest, hrest⟩ := List.exists_cons_of_ne_nil hne
  refine ⟨f.takeWhile (IsDigit ·), b, rest, ?_, fun d hd => ?_, ?_⟩
  · rw [← hrest, List.takeWhile_append_dropWhile]
  · simpa using List.mem_takeWhile_imp hd
  · have hhead := List.head_dropWhile_not (fun b => decide (IsDigit b)) hne
    simpa [hrest] using hhead

/-- **A field that is no number is refused for what is wrong with it.** -/
theorem number_eq_error (h : ¬((∀ b ∈ f, IsDigit b) ∧ decimal f < 2 ^ 64)) :
    ∃ detail, number f = .error (.format detail) ∧ Misread f detail := by
  by_cases hf : ∀ b ∈ f, IsDigit b
  · have hgreat : ¬decimal f < 2 ^ 64 := fun hlt => h ⟨hf, hlt⟩
    have hread := number_append hf []
    rw [List.append_nil, if_neg hgreat] at hread
    exact ⟨_, hread, .great (List.append_nil f).symm hf (Nat.not_lt.1 hgreat)⟩
  · obtain ⟨ds, b, rest, rfl, hds, hb⟩ := exists_strange hf
    rw [number_append hds]
    split
    · rename_i hlt
      rw [numberFrom, if_neg (show ¬(48 ≤ b ∧ b ≤ 57) from hb)]
      exact ⟨_, rfl, .strange rfl hds hlt hb⟩
    · rename_i hgreat
      exact ⟨_, rfl, .great rfl hds (Nat.not_lt.1 hgreat)⟩

/-- **A field is a number if its bytes are digits that write one of 64 bits**, and then it is what
they write. -/
theorem number_eq_ok_iff :
    number f = .ok n ↔ (∀ b ∈ f, IsDigit b) ∧ decimal f = n ∧ n < 2 ^ 64 := by
  constructor
  · intro h
    by_cases hf : (∀ b ∈ f, IsDigit b) ∧ decimal f < 2 ^ 64
    · have hread := number_append hf.1 []
      rw [List.append_nil, if_pos hf.2, numberFrom, h, Except.ok.injEq] at hread
      exact ⟨hf.1, hread.symm, hread ▸ hf.2⟩
    · obtain ⟨detail, herr, -⟩ := number_eq_error hf
      cases h.symm.trans herr
  · rintro ⟨hf, rfl, hlt⟩
    have hread := number_append hf []
    rwa [List.append_nil, if_pos hlt] at hread

end Wire

namespace Reading

open Reader

variable {σ : Type} {src : Source σ} {Due : Bytes → σ → Prop} {f rest : Bytes} {l : Bool}
  {r : Reader σ}

/-- **Numbers are read exactly.** A field of at most the greatest size is due from any source, however
it is cut, with its end and what follows it. The reader takes the field with its end and nothing
else, whatever the field holds; it gives a number just if the bytes are digits, and then the number
is their value, which has at most 64 bits; in all other cases the field is refused as ill-formed, and
the complaint is true of it. -/
theorem number_exact (hs : src.Supplies Due) {x : UInt8} {t : Terminator}
    (hr : Before Due (f ++ x :: rest) l r) (hx : terminator? false x = some t)
    (hsep : fieldSeparator ∉ f) (hend : lineEnd ∉ f) (hsize : f.length ≤ maxFieldSize) :
    ∃ y r', number src r = (y, r') ∧
      field src false r = (.ok (f, t), r') ∧ Before Due rest (t = .line) r' ∧
      (∀ n, y = .ok n ↔ (∀ b ∈ f, IsDigit b) ∧ decimal f = n ∧ n < 2 ^ 64) ∧
      (¬((∀ b ∈ f, IsDigit b) ∧ decimal f < 2 ^ 64) →
        ∃ detail, y = .error (.format detail) ∧ Misread f detail) := by
  have hf : ∀ y ∈ f, terminator? false y = none := fun y hy => by
    simp [terminator?, ne_of_mem_of_not_mem hy hsep, ne_of_mem_of_not_mem hy hend]
  obtain ⟨r', hfield, hr'⟩ := gives_field hs hf hx hsize r hr
  refine ⟨Wire.number f, r', ?_, hfield, hr', fun n => number_eq_ok_iff, number_eq_error⟩
  rw [number, parsed, bind_run, hfield]
  exact ofExcept_run _ _

/-- The greatest number of 64 bits with zeros in front, in two pieces, and the number after it. -/
theorem number_exact_greatest :
    let r := Reader.start [Arrival.bytes (Bytes.ofString "0018446744"),
      .bytes (Bytes.ofString "073709551615,18446744073709551616\n")] (.ofCapacity 7)
    ∃ r₁ r₂ detail, number (Arrival.source none) r = (.ok 18446744073709551615, r₁) ∧
      number (Arrival.source none) r₁ = (.error (.format detail), r₂) ∧
      r₁.leftover = Bytes.ofString "18446744073709551616\n" ∧ r₂.leftover = [] := by
  intro r
  have hr : Before (fun b as => Arrival.joined as = b ∧ Arrival.Fluent as)
      (Bytes.ofString "0018446744073709551615" ++ fieldSeparator ::
        (Bytes.ofString "18446744073709551616" ++ [lineEnd])) true r :=
    ⟨by decide, rfl, _, rfl, by decide +kernel, .piece (by decide) (.piece (by decide) (.dry rfl))⟩
  obtain ⟨y₁, r₁, hrun₁, -, hr₁, hok, -⟩ := number_exact (Arrival.supplies_fluent none) hr rfl
    (by decide) (by decide) (by decide)
  obtain ⟨y₂, r₂, hrun₂, -, hr₂, -, herr⟩ := number_exact (Arrival.supplies_fluent none) hr₁ rfl
    (by decide) (by decide) (by decide)
  obtain rfl := (hok 18446744073709551615).2 (by decide +kernel)
  obtain ⟨detail, rfl, -⟩ := herr (by decide +kernel)
  exact ⟨r₁, r₂, detail, hrun₁, hrun₂, Call.leftover_of_before hr₁, Call.leftover_of_before hr₂⟩

end Reading

end TagStore
