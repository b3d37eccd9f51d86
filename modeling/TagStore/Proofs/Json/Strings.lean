import TagStore.Json.Parser

/-!
# JSON strings read back

The escape of a character reads back as that character (`units_escapeChar`), so a string reads back
from its text between quotes (`parse?_render_string`), whatever its characters.
-/

namespace TagStore.Json

namespace Parser

theorem units_cons (fuel : Nat) (acc : List Unit16) (c : Char) (r : List Char) (hq : c ≠ '"')
    (hs : c ≠ '\\') (hlow : ¬c.toNat < 0x20) :
    units (fuel + 1) acc (c :: r) = units fuel (.char c :: acc) r := by
  simp only [units, hq, hs, hlow, if_false]

theorem units_quote (fuel : Nat) (acc : List Unit16) (r : List Char) :
    units (fuel + 1) acc ('"' :: r) = some (acc.reverse, r) := by
  simp only [units, if_true]

theorem hex4_hexDigit : ∀ n < 32, ∀ r,
    hex4 ('0' :: '0' :: Bytes.hexDigit (n / 16) :: Bytes.hexDigit (n % 16) :: r) = some (n, r) := by
  have key : ∀ n < 32, Bytes.hexValue? (Bytes.hexDigit (n / 16)) = some (n / 16) ∧
      Bytes.hexValue? (Bytes.hexDigit (n % 16)) = some (n % 16) := by decide
  intro n hn r
  obtain ⟨h₁, h₂⟩ := key n hn
  have h₀ : Bytes.hexValue? '0' = some 0 := by decide
  have hsum : ((0 * 16 + 0) * 16 + n / 16) * 16 + n % 16 = n := by omega
  simp only [hex4, h₀, h₁, h₂, Option.bind_eq_bind, Option.bind_some, hsum]

/-- The escape of a character reads back as that character. -/
theorem units_escapeChar (fuel : Nat) (acc : List Unit16) (c : Char) (r : List Char) :
    units (fuel + 1) acc (escapeChar c ++ r) = units fuel (.char c :: acc) r := by
  by_cases hq : c = '"'
  · subst hq
    rfl
  by_cases hs : c = '\\'
  · subst hs
    rfl
  by_cases hn : c = '\n'
  · subst hn
    rfl
  by_cases hr : c = '\r'
  · subst hr
    rfl
  by_cases ht : c = '\t'
  · subst ht
    rfl
  by_cases hb : c = '\x08'
  · subst hb
    rfl
  by_cases hf : c = '\x0c'
  · subst hf
    rfl
  rw [escapeChar, if_neg hq, if_neg hs, if_neg hn, if_neg hr, if_neg ht, if_neg hb, if_neg hf]
  by_cases hlow : c.toNat < 0x20
  · have hunit : Unit16.ofNat c.toNat = .char c := by
      rw [Unit16.ofNat, if_neg (by omega), Char.ofNat_toNat]
    rw [if_pos hlow]
    simp only [List.cons_append, List.nil_append]
    rw [units, if_neg (by decide), if_pos rfl]
    simp only [hex4_hexDigit _ hlow, hunit]
  · rw [if_neg hlow]
    exact units_cons fuel acc c r hq hs hlow

/-- The units of a string are its characters. -/
theorem units_escaped {fuel : Nat} (acc : List Unit16) (cs r : List Char) (h : cs.length < fuel) :
    units fuel acc (cs.flatMap escapeChar ++ '"' :: r) =
      some (acc.reverse ++ cs.map .char, r) := by
  induction cs generalizing acc fuel with
  | nil =>
    obtain ⟨fuel, rfl⟩ : ∃ f, fuel = f + 1 := ⟨fuel - 1, by omega⟩
    rw [List.flatMap_nil, List.nil_append, units_quote, List.map_nil, List.append_nil]
  | cons c cs ih =>
    obtain ⟨fuel, rfl⟩ : ∃ f, fuel = f + 1 := ⟨fuel - 1, by omega⟩
    rw [List.length_cons] at h
    rw [List.flatMap_cons, List.append_assoc, units_escapeChar, ih _ (by omega)]
    simp

theorem joinHalves_chars (acc cs : List Char) :
    joinHalves acc (cs.map .char) = some (acc.reverse ++ cs) := by
  induction cs generalizing acc with
  | nil => simp [joinHalves]
  | cons c cs ih => rw [List.map_cons, joinHalves, ih]; simp

theorem one_le_length_escapeChar (c : Char) : 1 ≤ (escapeChar c).length := by
  fun_cases escapeChar c <;> simp

theorem length_le_length_flatMap (cs : List Char) : cs.length ≤ (cs.flatMap escapeChar).length := by
  induction cs with
  | nil => exact Nat.le_refl _
  | cons c cs ih =>
    have h := one_le_length_escapeChar c
    rw [List.flatMap_cons, List.length_append, List.length_cons]
    omega

/-- A string reads back from what stands after its opening quote. -/
theorem string_escaped (s : String) (r : List Char) :
    string (s.toList.flatMap escapeChar ++ '"' :: r) = some (some s, r) := by
  have hlen := length_le_length_flatMap s.toList
  have hfuel : s.toList.length < (s.toList.flatMap escapeChar ++ '"' :: r).length + 1 := by
    rw [List.length_append]
    omega
  rw [string, units_escaped [] _ r hfuel, List.reverse_nil, List.nil_append, Option.map_some]
  simp only
  rw [joinHalves_chars, Option.map_some, List.reverse_nil, List.nil_append, String.ofList_toList]

end Parser

/-- **A string reads back from its text.** -/
theorem parse?_render_string (s : String) : parse? (Json.string s).render = some (.string s) := by
  have hskip : ∀ r, Parser.skip ('"' :: r) = '"' :: r := fun r => rfl
  have hlist : (Json.string s).render.toList =
      '"' :: (s.toList.flatMap escapeChar ++ '"' :: []) := by
    rw [render, renderString, String.toList_ofList]
  have hread : Tree.read? (Json.string s).render = some (.string (some s)) := by
    rw [Tree.read?, hlist, Parser.value, hskip]
    simp only [if_true, Parser.string_escaped, Option.map_some]
    rw [if_pos (by rfl)]
  rw [parse?, hread]
  rfl

end TagStore.Json
