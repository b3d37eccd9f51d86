import TagStore.Compression.EnginePool
import TagStore.Compression.Error
import TagStore.Compression.Output
import TagStore.Compression.Zlib

/-!
# Inflating into room

An engine reads a stream in one call or not at all. If it was short of input at its first call, it
makes no headway at the next; if it was short of room, it goes no further. Room is set aside at the
start, and one block more whenever it is used up, unless there is as much as a reader takes.
-/

namespace TagStore.Compression

/-- An engine that reads a stream: what it has counted, and the fault that has stopped it. -/
structure Inflater where
  counts : Engine
  fault : Option Inflate.Fault

namespace Inflater

/-- What a call of an engine comes to. -/
inductive Worked
  | ended (d : Inflater) (o : Output)
  | short (d : Inflater) (o : Output)
  | refused (d : Inflater)

/-- An engine that has not read anything yet. -/
def start : Inflater := ⟨.fresh, none⟩

instance : Poolable Inflater where
  create := start
  reset _ := start
  reset_eq _ := rfl

/-- Lets an engine read its input and put out what there is room for. -/
def work (d : Inflater) (input : Bytes) (o : Output) : Worked :=
  match d.fault with
  | some .needsInput => .short d o
  | some _ => .refused d
  | none =>
    match Zlib.decode o.room input with
    | .ok data => .ended ⟨d.counts.feed input.length data.length, none⟩ (o.fill data)
    | .error ⟨.invalid, _⟩ => .refused ⟨d.counts, some .invalid⟩
    | .error ⟨fault, out⟩ =>
      let filled := o.fill out.toList
      .short ⟨d.counts.feed input.length (filled.bytes.length - o.bytes.length), some fault⟩ filled

/-- An engine that falls short has stopped at a fault; if it had stopped before, it has done
nothing. -/
theorem of_work {d d' : Inflater} {input : Bytes} {o o' : Output}
    (h : d.work input o = .short d' o') :
    d'.fault ≠ none ∧ o'.capacity = o.capacity ∧ (d.fault = none ∨ d' = d ∧ o' = o) := by
  rw [work] at h
  split at h
  · rename_i hf
    cases h
    exact ⟨by simp [hf], rfl, .inr ⟨rfl, rfl⟩⟩
  · cases h
  · rename_i hf
    split at h
    · cases h
    · cases h
    · cases h
      exact ⟨Option.some_ne_none _, rfl, .inl hf⟩

/-- Lets an engine work until its stream has ended. Room for `most` bytes is not extended. -/
def finish (most : Nat) (stream : Bytes) (d : Inflater) (o : Output) :
    Except CompressionError Bytes × Inflater :=
  match _h : d.work (stream.drop d.counts.totalIn) o with
  | .ended d' o' => (.ok o'.bytes, d')
  | .refused d' => (.error (.decompression "invalid deflate stream"), d')
  | .short d' o' =>
    if o'.bytes.length = o'.capacity then
      if most ≤ o'.bytes.length then (.error (.sizeLimitExceeded o'.bytes.length most), d')
      else finish most stream d' (o'.reserve Output.block)
    else if d'.counts = d.counts then (.error (.truncated "deflate stream ended early"), d')
    else finish most stream d' o'
termination_by (if d.fault = none then 2 else 0) + if o.room = 0 then 1 else 0
decreasing_by
  · rename_i hfull _
    obtain ⟨hstopped, -, hbefore⟩ := of_work _h
    have hreserved := o'.room_reserve (n := Output.block) (by decide)
    rw [if_neg hstopped, if_neg (Nat.ne_of_gt hreserved)]
    obtain hfresh | ⟨rfl, rfl⟩ := hbefore
    · rw [if_pos hfresh]
      omega
    · rw [if_neg hstopped, if_pos (by rw [Output.room, hfull, Nat.sub_self])]
      omega
  · rename_i hmoved
    obtain ⟨hstopped, -, hfresh | ⟨rfl, rfl⟩⟩ := of_work _h
    · rw [if_neg hstopped, if_pos hfresh]
      split <;> split <;> omega
    · exact absurd rfl hmoved

/-- **Data for which there is room is put out.** -/
theorem finish_of_decode {most : Nat} {stream data : Bytes} {o : Output}
    (h : Zlib.decode o.room stream = .ok data) (hroom : data.length ≤ o.room) :
    (start.finish most stream o).1 = .ok (o.bytes ++ data) := by
  have hwork : start.work (stream.drop start.counts.totalIn) o =
      .ended ⟨start.counts.feed stream.length data.length, none⟩ (o.fill data) := by
    rw [work]
    simp only [start, Engine.fresh, List.drop_zero, h]
  rw [finish]
  split
  · rename_i d' o' hended
    rw [hwork] at hended
    cases hended
    exact congrArg Except.ok (Output.bytes_fill hroom)
  · rename_i hrefused
    cases hwork.symm.trans hrefused
  · rename_i hshort
    cases hwork.symm.trans hshort

/-- Why no data comes of a stream. Room is short only if there is as much of it as may be, and only
for an engine that has not stopped before. -/
theorem finish_error {most : Nat} {stream : Bytes} {d : Inflater} {o : Output}
    {e : CompressionError} (h : (d.finish most stream o).1 = .error e)
    (hstopped : d.fault ≠ none → 0 < o.room) (hcapacity : d.fault = none → o.capacity ≤ most) :
    e = .decompression "invalid deflate stream" ∨ e = .truncated "deflate stream ended early" ∨
      d.fault = none ∧ o.capacity = most ∧ e = .sizeLimitExceeded most most := by
  fun_induction finish most stream d o with
  | case1 => cases h
  | case2 =>
    cases h
    exact .inl rfl
  | case3 d o d' o' hwork hfull hmost =>
    cases h
    obtain ⟨hfault, hsame, hfresh | ⟨rfl, rfl⟩⟩ := of_work hwork
    · have hle := hcapacity hfresh
      exact .inr (.inr ⟨hfresh, by omega, by rw [hfull, hsame, Nat.le_antisymm hle (by omega)]⟩)
    · have hroom := hstopped hfault
      rw [Output.room] at hroom
      omega
  | case4 d o d' o' hwork hfull hmost ih =>
    obtain ⟨hfault, -⟩ := of_work hwork
    obtain he | he | ⟨hnone, -⟩ := ih h (fun _ => o'.room_reserve (by decide))
      (fun hnone => absurd hnone hfault)
    · exact .inl he
    · exact .inr (.inl he)
    · exact absurd hnone hfault
  | case5 =>
    cases h
    exact .inr (.inl rfl)
  | case6 d o d' o' hwork hfull hmoved ih =>
    obtain ⟨hfault, -⟩ := of_work hwork
    have hroom : 0 < o'.room := Nat.sub_pos_of_lt (Nat.lt_of_le_of_ne o'.fits hfull)
    obtain he | he | ⟨hnone, -⟩ := ih h (fun _ => hroom) (fun hnone => absurd hnone hfault)
    · exact .inl he
    · exact .inr (.inl he)
    · exact absurd hnone hfault

end Inflater

end TagStore.Compression
