import TagStore.Wire.Field

/-!
# Lines

A line is a run of bytes that ends with its one line end. A stream of bytes is cut into its lines
in one way (`linesOf`), and a run of lines is given back by it (`linesOf_flatten`). What is written
after the last line end is not a line yet.
-/

namespace TagStore.Wire

/-- Whether a run of bytes ends with its one line end. -/
def IsLine (b : Bytes) : Prop := ∃ body, lineEnd ∉ body ∧ b = body ++ [lineEnd]

/-- The lines of a run of bytes; `acc` holds the bytes before of the first of them, the last
first. -/
def linesAfter (acc : Bytes) : Bytes → List Bytes
  | [] => []
  | b :: r =>
    if b = lineEnd then (b :: acc).reverse :: linesAfter [] r else linesAfter (b :: acc) r

/-- The lines of a run of bytes. What follows the last line end is left out. -/
def linesOf (b : Bytes) : List Bytes := linesAfter [] b

theorem linesAfter_append (acc : Bytes) {b : Bytes} (c : Bytes) (h : lineEnd ∉ b) :
    linesAfter acc (b ++ c) = linesAfter (b.reverse ++ acc) c := by
  induction b generalizing acc with
  | nil => rfl
  | cons x xs ih =>
    rw [List.mem_cons, not_or] at h
    rw [List.cons_append, linesAfter, if_neg (Ne.symm h.1), ih (x :: acc) h.2]
    simp

namespace IsLine

variable {b c l : Bytes}

theorem linesOf_append (h : IsLine l) (c : Bytes) : linesOf (l ++ c) = l :: linesOf c := by
  obtain ⟨body, hb, rfl⟩ := h
  rw [linesOf, List.append_assoc, linesAfter_append _ _ hb, List.append_nil, List.singleton_append,
    linesAfter, if_pos rfl, List.reverse_cons, List.reverse_reverse]
  rfl

theorem count_lineEnd (h : IsLine l) : l.count lineEnd = 1 := by
  obtain ⟨body, hb, rfl⟩ := h
  simp [List.count_eq_zero.2 hb]

theorem ne_nil (h : IsLine l) : l ≠ [] := by
  obtain ⟨body, -, rfl⟩ := h
  simp

/-- A part of a line from its start has no line end. -/
theorem not_mem_of_start (h : IsLine l) (hp : b <+: l) (hne : b ≠ l) : lineEnd ∉ b := by
  obtain ⟨body, hb, rfl⟩ := h
  obtain rfl | h := (List.prefix_concat_iff).1 hp
  · exact absurd rfl hne
  · exact fun hm => hb (h.subset hm)

theorem count_lineEnd_of_start (h : IsLine l) (hp : b <+: l) :
    b.count lineEnd = if b = l then 1 else 0 := by
  split
  · rename_i he
    rw [he, h.count_lineEnd]
  · rename_i hne
    exact List.count_eq_zero.2 (h.not_mem_of_start hp hne)

/-- Lines of which one starts with the other are the same. -/
theorem eq_of_start (hb : IsLine b) (hl : IsLine l) (h : b <+: l) : b = l := by
  refine Decidable.byContradiction fun hne => hl.not_mem_of_start h hne ?_
  obtain ⟨body, -, rfl⟩ := hb
  simp

end IsLine

theorem linesOf_flatten {ls : List Bytes} (h : ∀ l ∈ ls, IsLine l) (c : Bytes) :
    linesOf (ls.flatten ++ c) = ls ++ linesOf c := by
  induction ls with
  | nil => rfl
  | cons l ls ih =>
    rw [List.flatten_cons, List.append_assoc, (h l List.mem_cons_self).linesOf_append,
      ih fun l hl => h l (List.mem_cons_of_mem _ hl)]
    rfl

end TagStore.Wire
