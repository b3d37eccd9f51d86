import Mathlib.Data.List.TakeWhile
import TagStore.Text.Split

/-!
# Trimming and cutting texts

A text is what trimming leaves of it with white space around (`exists_trimChars`), and of a text
without white space nothing is lost whatever white space stands around it (`trimChars_append`). A
text that holds a character is cut at the last one in just one way (`splitLast?_append`).
-/

namespace TagStore.Text

variable {sep : Char} {left core right before after cs : List Char}

/-- No character from `!` to `~` is white space. -/
theorem isBlank_eq_false_of_le {c : Char} (h : 33 ≤ c.toNat) (h' : c.toNat ≤ 126) :
    isBlank c = false := by
  simp only [isBlank, Bool.or_eq_false_iff, Bool.and_eq_false_iff, decide_eq_false_iff_not,
    beq_eq_false_iff_ne]
  omega

/-- A text is what trimming leaves of it, between white space. -/
theorem exists_trimChars (cs : List Char) :
    ∃ left right, cs = left ++ trimChars cs ++ right ∧ (∀ c ∈ left, isBlank c) ∧
      ∀ c ∈ right, isBlank c := by
  refine ⟨cs.takeWhile isBlank, ((cs.dropWhile isBlank).reverse.takeWhile isBlank).reverse, ?_,
    fun c hc => List.mem_takeWhile_imp hc,
    fun c hc => List.mem_takeWhile_imp (List.mem_reverse.1 hc)⟩
  rw [trimChars, List.append_assoc, ← List.reverse_append, List.takeWhile_append_dropWhile,
    List.reverse_reverse, List.takeWhile_append_dropWhile]

/-- No white space is dropped in front of a text without any. -/
theorem dropWhile_isBlank_append (hcore : ∀ c ∈ core, isBlank c = false) (hne : core ≠ [])
    (right : List Char) : (core ++ right).dropWhile isBlank = core ++ right := by
  obtain ⟨c, cs, rfl⟩ := List.exists_cons_of_ne_nil hne
  rw [List.cons_append, List.dropWhile_cons, if_neg (by simp [hcore c List.mem_cons_self])]

/-- **Trimming takes the white space around a text without any**, and nothing else. -/
theorem trimChars_append (hleft : ∀ c ∈ left, isBlank c) (hcore : ∀ c ∈ core, isBlank c = false)
    (hne : core ≠ []) (hright : ∀ c ∈ right, isBlank c) :
    trimChars (left ++ core ++ right) = core := by
  have hrev : ∀ c ∈ core.reverse, isBlank c = false := fun c hc => hcore c (List.mem_reverse.1 hc)
  have hcore' := dropWhile_isBlank_append hrev (List.reverse_ne_nil_iff.2 hne) []
  rw [List.append_nil] at hcore'
  rw [trimChars, List.append_assoc, List.dropWhile_append_of_pos hleft,
    dropWhile_isBlank_append hcore hne, List.reverse_append,
    List.dropWhile_append_of_pos fun c hc => hright c (List.mem_reverse.1 hc), hcore',
    List.reverse_reverse]

/-- A text without white space is not trimmed. -/
theorem trimChars_eq_self (hcore : ∀ c ∈ core, isBlank c = false) : trimChars core = core := by
  by_cases hne : core = []
  · rw [hne]
    rfl
  · have htrim : trimChars ([] ++ core ++ []) = core := trimChars_append nofun hcore hne nofun
    rwa [List.nil_append, List.append_nil] at htrim

theorem splitLast?_eq_none (h : sep ∉ cs) : splitLast? sep cs = none := by
  induction cs with
  | nil => rfl
  | cons c cs ih =>
    rw [List.mem_cons, not_or] at h
    rw [splitLast?, ih h.2]
    exact if_neg (Ne.symm h.1)

theorem notMem_of_splitLast? (h : splitLast? sep cs = none) : sep ∉ cs := by
  induction cs with
  | nil => simp
  | cons c cs ih =>
    rw [splitLast?] at h
    split at h
    · cases h
    · rename_i hcs
      split at h
      · cases h
      · rename_i hc
        rw [List.mem_cons, not_or]
        exact ⟨Ne.symm hc, ih hcs⟩

/-- A text is cut where no more of the characters follow. -/
theorem splitLast?_append (h : sep ∉ after) :
    splitLast? sep (before ++ sep :: after) = some (before, after) := by
  induction before with
  | nil => simp [splitLast?, splitLast?_eq_none h]
  | cons c before ih => rw [List.cons_append, splitLast?, ih]

end TagStore.Text
