import TagStore.Compression.EnginePool
import TagStore.Compression.Error
import TagStore.Compression.Output
import TagStore.Compression.Zlib

/-!
# Deflating into room

An engine is fed what it has not taken yet, and takes a window of it at a time. When all of its
input is taken, it makes the stream of what it has taken and gives it out piece by piece, never more
at a time than there is room for. Room is set aside at the start, and one block more whenever it is
used up, until the stream has ended. An engine that neither takes nor gives anything although there
is room is stuck; so is one that is fed more after it has begun to give out its stream.
-/

namespace TagStore.Compression

/-- An engine at work: what it has counted, the bytes that it has taken, and, once it has taken all
of them, the rest of its stream. -/
structure Deflater where
  counts : Engine
  taken : Bytes
  pending : Option Bytes

namespace Deflater

/-- An engine that has not been fed yet. -/
def start : Deflater := ⟨.fresh, [], none⟩

instance : Poolable Deflater where
  create := start
  reset _ := start
  reset_eq _ := rfl

/-- How many bytes an engine takes at a time. -/
def window : Nat := 32768

/-- Takes the first window of the input. -/
def feed (d : Deflater) (input : Bytes) : Deflater :=
  ⟨d.counts.feed (min input.length window) 0, d.taken ++ input.take window, d.pending⟩

/-- Gives out of the rest of the stream what there is room for; says whether that was all. -/
def give (d : Deflater) (rest : Bytes) (o : Output) : Bool × Deflater × Output :=
  let filled := o.fill rest
  (rest.length ≤ o.room,
    ⟨d.counts.feed 0 (filled.bytes.length - o.bytes.length), d.taken, some (rest.drop o.room)⟩,
    filled)

/-- Lets an engine work on all that is left of its input; says whether its stream has ended. -/
def work (d : Deflater) (input : Bytes) (o : Output) : Bool × Deflater × Output :=
  match d.pending with
  | some rest => if input = [] then d.give rest o else (false, d, o)
  | none =>
    if window < input.length then (false, d.feed input, o)
    else (d.feed input).give (Zlib.encode (d.feed input).taken) o

/-- How a call leaves an engine whose stream has not ended: with one window taken, with as much given
out as there was room for, or as it was. -/
inductive Unfinished (d : Deflater) (input : Bytes) (o : Output) : Deflater → Output → Prop
  | took (h : d.pending = none) (hmore : window < input.length) :
    Unfinished d input o (d.feed input) o
  | turned {d' : Deflater} {o' : Output} (h : d.pending = none) (hall : input.length ≤ window)
    (hgive : (d.feed input).give (Zlib.encode (d.feed input).taken) o = (false, d', o')) :
    Unfinished d input o d' o'
  | gave {rest : Bytes} {d' : Deflater} {o' : Output} (h : d.pending = some rest)
    (hinput : input = []) (hgive : d.give rest o = (false, d', o')) : Unfinished d input o d' o'
  | refused {rest : Bytes} (h : d.pending = some rest) (hinput : input ≠ []) :
    Unfinished d input o d o

variable {d d' : Deflater} {input rest : Bytes} {o o' : Output}

theorem unfinished_of_work (h : d.work input o = (false, d', o')) :
    Unfinished d input o d' o' := by
  rw [work] at h
  split at h
  · rename_i rest hrest
    split at h
    · rename_i hinput
      exact .gave hrest hinput h
    · rename_i hinput
      obtain ⟨rfl, rfl⟩ := Prod.mk.inj (Prod.mk.inj h).2
      exact .refused hrest hinput
  · rename_i hnone
    split at h
    · rename_i hmore
      obtain ⟨rfl, rfl⟩ := Prod.mk.inj (Prod.mk.inj h).2
      exact .took hnone hmore
    · rename_i hall
      exact .turned hnone (Nat.le_of_not_lt hall) h

/-- An engine that has not given out the rest of its stream has used up the room. -/
theorem of_give (h : d.give rest o = (false, d', o')) :
    o.room < rest.length ∧ d'.counts.totalIn = d.counts.totalIn ∧
      d'.pending = some (rest.drop o.room) ∧ o'.bytes = o.bytes ++ rest.take o.room ∧
      o'.bytes.length = o'.capacity := by
  rw [give] at h
  obtain ⟨hmore, h⟩ := Prod.mk.inj h
  obtain ⟨rfl, rfl⟩ := Prod.mk.inj h
  have hroom : o.room < rest.length := Nat.lt_of_not_le (decide_eq_false_iff_not.1 hmore)
  exact ⟨hroom, rfl, rfl, rfl, Output.length_fill hroom⟩

/-- An engine that has given out the rest of its stream. -/
theorem bytes_of_give (h : d.give rest o = (true, d', o')) : o'.bytes = o.bytes ++ rest := by
  rw [give] at h
  obtain ⟨hall, h⟩ := Prod.mk.inj h
  obtain ⟨-, rfl⟩ := Prod.mk.inj h
  exact Output.bytes_fill (of_decide_eq_true hall)

/-- How much an engine has still to take, and to turn into its stream. -/
def ahead (data : Bytes) (d : Deflater) : Nat :=
  data.length - d.counts.totalIn + if d.pending = none then 1 else 0

/-- How much an engine has still to give out. -/
def behind (d : Deflater) : Nat := (d.pending.getD []).length

/-- A call that does not end the stream leaves less to take, or less to give out and no room, or
nothing has come of it. -/
theorem ahead_of_work {data : Bytes}
    (h : d.work (data.drop d.counts.totalIn) o = (false, d', o')) :
    d'.ahead data < d.ahead data ∨
      d'.ahead data = d.ahead data ∧ o'.bytes.length = o'.capacity ∧
        d'.behind + o.room = d.behind ∨
      d' = d ∧ o' = o := by
  cases unfinished_of_work h with
  | took hnone hmore =>
    refine .inl ?_
    simp only [ahead, feed, Engine.feed, window, List.length_drop, hnone, if_true] at hmore ⊢
    omega
  | turned hnone hall hgive =>
    obtain ⟨-, hin, hpending, -⟩ := of_give hgive
    refine .inl ?_
    simp only [ahead, hin, hpending, feed, Engine.feed, List.length_drop, hnone, reduceCtorEq,
      if_true, if_false]
    omega
  | gave hrest hinput hgive =>
    obtain ⟨hroom, hin, hpending, -, hfull⟩ := of_give hgive
    refine .inr (.inl ⟨?_, hfull, ?_⟩)
    · simp only [ahead, hin, hpending, hrest, reduceCtorEq, if_false]
    · simp only [behind, hpending, hrest, Option.getD_some, List.length_drop]
      omega
  | refused => exact .inr (.inr ⟨rfl, rfl⟩)

/-- Lets an engine work on data until its stream has ended. -/
def finish (data : Bytes) (d : Deflater) (o : Output) : Except CompressionError Bytes × Deflater :=
  match _h : d.work (data.drop d.counts.totalIn) o with
  | (true, d', o') => (.ok o'.bytes, d')
  | (false, d', o') =>
    if o'.bytes.length = o'.capacity then finish data d' (o'.reserve Output.block)
    else if d'.counts = d.counts then (.error (.compression "deflate made no progress"), d')
    else finish data d' o'
termination_by (d.ahead data, d.behind, if o.room = 0 then 1 else 0)
decreasing_by
  · rename_i hfull
    have hreserved := o'.room_reserve (n := Output.block) (by decide)
    simp only [Prod.lex_def, if_neg (Nat.ne_of_gt hreserved)]
    rcases ahead_of_work _h with hless | ⟨hsame, -, hgiven⟩ | ⟨rfl, rfl⟩
    · exact .inl hless
    · split <;> omega
    · rw [if_pos (by rw [Output.room, hfull, Nat.sub_self])]
      omega
  · rename_i hfull hmoved
    rw [Prod.lex_def]
    rcases ahead_of_work _h with hless | ⟨-, hused, -⟩ | ⟨rfl, -⟩
    · exact .inl hless
    · exact absurd hused hfull
    · exact absurd rfl hmoved

end Deflater

end TagStore.Compression
