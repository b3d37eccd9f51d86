import TagStore.Proofs.Wire.Boundary

/-!
# The fields of lines

A line is cut at its separators (`Wire.fieldsOf`). Fields are taken one after the other, whichever
line they stand on (`Wire.takeFields`): where a line has no more, the next field is the first one of
the line after it. A reader of whole lines does just that, whatever it makes of the fields
(`Reading.Remains.parsed`), and where it passes over the rest of its line it goes on with the next
(`Reading.Remains.finish`).
-/

namespace TagStore

open Wire

namespace Wire

/-- The fields of a line. -/
def fieldsOf (l : Bytes) : List Bytes := l.dropLast.splitOn fieldSeparator

/-- A line is its last field, or a field and a line with the others. -/
inductive Headed : Bytes → Prop
  | last {f : Bytes} : fieldSeparator ∉ f → lineEnd ∉ f → Headed (f ++ [lineEnd])
  | more {f l : Bytes} : fieldSeparator ∉ f → lineEnd ∉ f → IsLine l →
    Headed (f ++ fieldSeparator :: l)

theorem IsLine.headed {l : Bytes} (h : IsLine l) : Headed l := by
  obtain ⟨body, hb, rfl⟩ := h
  by_cases hsep : fieldSeparator ∈ body
  · obtain ⟨f, rest, rfl, hf⟩ := List.eq_append_cons_of_mem hsep
    rw [List.mem_append, List.mem_cons, not_or, not_or] at hb
    rw [List.append_assoc]
    exact .more hf hb.1 ⟨rest, hb.2.2, rfl⟩
  · exact .last hsep hb

theorem fieldsOf_last {f : Bytes} (h : fieldSeparator ∉ f) : fieldsOf (f ++ [lineEnd]) = [f] := by
  rw [fieldsOf, List.dropLast_concat, List.splitOn_eq_singleton h]

theorem fieldsOf_more {f l : Bytes} (h : fieldSeparator ∉ f) (hl : IsLine l) :
    fieldsOf (f ++ fieldSeparator :: l) = f :: fieldsOf l := by
  rw [fieldsOf, fieldsOf, List.dropLast_append_cons, List.dropLast_cons_of_ne_nil hl.ne_nil,
    List.splitOn_append_cons_self_of_not_mem h]

/-- The next `n` fields of lines: those of the first line and, where it has too few, those of the
lines after it. Gives also what is left, the rest of the line of the last field first. -/
def takeFields (n : Nat) : List (List Bytes) → Option (List Bytes × List (List Bytes))
  | [] => if n = 0 then some ([], []) else none
  | l :: ls =>
    if n ≤ l.length then some (l.take n, l.drop n :: ls)
    else (takeFields (n - l.length) ls).map fun y => (l ++ y.1, y.2)

theorem fieldsOf_ne_nil (l : Bytes) : fieldsOf l ≠ [] := List.splitOn_ne_nil _ _

/-- A line that has no more fields is passed over. -/
theorem takeFields_nil_cons {n : Nat} (h : 0 < n) (ls : List (List Bytes)) :
    takeFields n ([] :: ls) = takeFields n ls := by
  rw [takeFields, List.length_nil, if_neg (Nat.not_le.2 h), Nat.sub_zero]
  cases takeFields n ls <;> rfl

theorem takeFields_one (f : Bytes) (l : List Bytes) (ls : List (List Bytes)) :
    takeFields 1 ((f :: l) :: ls) = some ([f], l :: ls) := by
  simp [takeFields]

end Wire

namespace Reading

open AtHand

variable {α : Type}

/-- A field at hand. -/
theorem field_holding {split : Bool} {f : Bytes} {x : UInt8} {t : Terminator} (rest : Bytes)
    (l : Bool) (hf : ∀ y ∈ f, terminator? split y = none) (hx : terminator? split x = some t) :
    field .ended split (.holding (f ++ x :: rest) l) = (.ok (f, t), .holding rest (t = .line)) := by
  have h := Reader.fieldFrom_holding_ends 0 l (Reader.takeField_append_cons [] rest hf hx)
  rwa [List.append_nil, List.reverse_reverse] at h

theorem ofExcept_run {σ : Type} (x : Except ProtocolError α) (r : Reader σ) :
    ofExcept x r = (x, r) := by
  cases x <;> rfl

/-- A field at hand, read by a rule. -/
theorem parsed_holding (parse : Bytes → Except ProtocolError α) {f : Bytes} (rest : Bytes)
    (l : Bool) (hsep : fieldSeparator ∉ f) (hend : lineEnd ∉ f) :
    parsed .ended parse (.holding (f ++ fieldSeparator :: rest) l) =
        (parse f, .holding rest false) ∧
      parsed .ended parse (.holding (f ++ lineEnd :: rest) l) = (parse f, .holding rest true) := by
  have hf : ∀ y ∈ f, terminator? false y = none := by
    intro y hy
    have hs : y ≠ fieldSeparator := fun h => hsep (h ▸ hy)
    have he : y ≠ lineEnd := fun h => hend (h ▸ hy)
    simp [terminator?, hs, he]
  constructor
  · rw [parsed, bind_run, field_holding rest l hf (t := .field) rfl]
    exact ofExcept_run _ _
  · rw [parsed, bind_run, field_holding rest l hf (t := .line) rfl]
    exact ofExcept_run _ _

/-- The rest of a line at hand. -/
theorem finish_holding {l : Bytes} (hl : IsLine l) (rest : Bytes) :
    finish .ended (.holding (l ++ rest) false) = (.ok (), .holding rest true) := by
  obtain ⟨body, hb, rfl⟩ := hl
  rw [finish, List.append_assoc, List.singleton_append, skipLine_holding_line _ hb,
    skipLine_holding_lineEnd]

/-- Where a reader stands in whole lines: between two of them, or within one. -/
inductive Remains : Reader Unit → List (List Bytes) → Prop
  | between {ls : List Bytes} :
    (∀ l ∈ ls, IsLine l) → Remains (.holding ls.flatten true) ([] :: ls.map fieldsOf)
  | within {l : Bytes} {ls : List Bytes} :
    IsLine l → (∀ l ∈ ls, IsLine l) →
    Remains (.holding (l ++ ls.flatten) false) (fieldsOf l :: ls.map fieldsOf)

namespace Remains

variable {r r' : Reader Unit} {s : List (List Bytes)}

theorem ne_nil {l : List Bytes} (h : Remains r (l :: s)) : ∀ l' ∈ s, l' ≠ [] := by
  intro l' hl'
  cases h with
  | between | within =>
    obtain ⟨b, -, rfl⟩ := List.mem_map.1 hl'
    exact fieldsOf_ne_nil b

/-- The first field of whole lines. -/
theorem parsed_lines {parse : Bytes → Except ProtocolError α} {l : Bytes} {ls : List Bytes}
    {fresh : Bool} {a : α} (hl : IsLine l) (hls : ∀ l ∈ ls, IsLine l)
    (h : parsed .ended parse (.holding (l ++ ls.flatten) fresh) = (.ok a, r')) :
    ∃ f s', parse f = .ok a ∧ takeFields 1 (fieldsOf l :: ls.map fieldsOf) = some ([f], s') ∧
      Remains r' s' := by
  cases hl.headed with
  | @last f hsep hend =>
    rw [List.append_assoc, List.singleton_append, (parsed_holding parse _ _ hsep hend).2] at h
    obtain ⟨hp, rfl⟩ := Prod.mk.inj h
    rw [fieldsOf_last hsep]
    exact ⟨f, _, hp, takeFields_one _ _ _, .between hls⟩
  | @more f l hsep hend hrest =>
    rw [List.append_assoc, List.cons_append, (parsed_holding parse _ _ hsep hend).1] at h
    obtain ⟨hp, rfl⟩ := Prod.mk.inj h
    rw [fieldsOf_more hsep hrest]
    exact ⟨f, _, hp, takeFields_one _ _ _, .within hrest hls⟩

/-- **A field that is read is the next field of the lines.** -/
theorem parsed {parse : Bytes → Except ProtocolError α} {a : α} (hr : Remains r s)
    (h : parsed .ended parse r = (.ok a, r')) :
    ∃ f s', parse f = .ok a ∧ takeFields 1 s = some ([f], s') ∧ Remains r' s' := by
  cases hr with
  | @between ls hls =>
    cases ls with
    | nil =>
      obtain ⟨-, x, hx⟩ := parsed_eq_ok h
      simp at hx
    | cons l ls =>
      obtain ⟨f, s', hp, ht, hr⟩ := parsed_lines (hls l List.mem_cons_self)
        (fun l' hl' => hls l' (List.mem_cons_of_mem _ hl')) h
      exact ⟨f, s', hp, (takeFields_nil_cons Nat.one_pos _).trans ht, hr⟩
  | within hl hls => exact parsed_lines hl hls h

/-- **What follows the rest of a line is the next line.** -/
theorem finish {a : Unit} (hr : Remains r s) (h : finish .ended r = (.ok a, r')) :
    Remains r' ([] :: s.tail) := by
  cases hr with
  | between hls =>
    rw [Reading.finish, skipLine_holding_true] at h
    obtain ⟨-, rfl⟩ := Prod.mk.inj h
    exact .between hls
  | within hl hls =>
    rw [finish_holding hl] at h
    obtain ⟨-, rfl⟩ := Prod.mk.inj h
    exact .between hls

end Remains

end Reading

end TagStore
