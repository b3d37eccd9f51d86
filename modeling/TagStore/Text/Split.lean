import TagStore.Text.Blank

/-!
# Splitting texts

A text cut at every occurrence of a character, and a text cut at the last one.
-/

namespace TagStore.Text

/-- The parts of a text between the occurrences of a character. -/
def splitAt (sep : Char) : List Char → List (List Char)
  | [] => [[]]
  | c :: cs =>
    if c = sep then [] :: splitAt sep cs
    else match splitAt sep cs with
      | [] => [[c]]
      | p :: ps => (c :: p) :: ps

/-- What stands before and after the last occurrence of a character. -/
def splitLast? (sep : Char) : List Char → Option (List Char × List Char)
  | [] => none
  | c :: cs =>
    match splitLast? sep cs with
    | some (before, after) => some (c :: before, after)
    | none => if c = sep then some ([], cs) else none

/-- The entries of a list whose items are divided by commas, without the white space around them;
blank entries are left out. -/
def entries (s : String) : List String :=
  ((splitAt ',' s.toList).map fun cs => String.ofList (trimChars cs)).filter (· ≠ "")

/-- Nothing is lost by cutting at the last occurrence, and none is left after it. -/
theorem splitLast?_eq_some {sep : Char} {cs before after : List Char}
    (h : splitLast? sep cs = some (before, after)) :
    cs = before ++ sep :: after ∧ sep ∉ after := by
  induction cs generalizing before with
  | nil => simp [splitLast?] at h
  | cons c cs ih =>
    simp only [splitLast?] at h
    split at h
    · rename_i b a hs
      simp only [Option.some.injEq, Prod.mk.injEq] at h
      obtain ⟨rfl, rfl⟩ := h
      have := ih hs
      simp [← this.1, this.2]
    · rename_i hs
      split at h
      · rename_i hc
        simp only [Option.some.injEq, Prod.mk.injEq] at h
        obtain ⟨rfl, rfl⟩ := h
        refine ⟨by simp [hc], ?_⟩
        clear ih
        induction cs with
        | nil => simp
        | cons d ds ih =>
          simp only [splitLast?] at hs
          split at hs
          · simp at hs
          · rename_i hd
            split at hs
            · simp at hs
            · rename_i hne
              have := ih hd
              simp only [List.mem_cons, not_or]
              exact ⟨fun he => hne he.symm, this⟩
      · simp at h

end TagStore.Text
