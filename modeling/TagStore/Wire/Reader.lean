import TagStore.Wire.Error
import TagStore.Wire.Field

/-!
# Readers

A reader takes the fields of a reply one by one out of a buffer that it refills from a stream. A
field ends at a separator or at the end of its line, whichever comes first, and reading may go on
after a call that failed. `Reader.load` counts the bytes that are still to come; every field takes
some of them, so reading ends.
-/

namespace TagStore

open Wire

/-- Bytes read from a stream and not taken yet. -/
structure ReadBuffer where
  capacity : Nat
  unread : Bytes
deriving Repr, DecidableEq

namespace ReadBuffer

/-- An empty buffer. Even a buffer of no size has room for one byte. -/
def ofCapacity (n : Nat) : ReadBuffer := ⟨max n 1, []⟩

/-- An empty buffer of the usual size. -/
def standard : ReadBuffer := ofCapacity readBlockSize

/-- Forgets what has not been taken. -/
def clear (b : ReadBuffer) : ReadBuffer := ⟨b.capacity, []⟩

end ReadBuffer

/-- A reader of replies: its stream, its buffer, and whether the last line has been taken to its
end. -/
structure Reader (σ : Type) where
  stream : σ
  buffer : ReadBuffer
  atLineEnd : Bool

namespace Reader

/-- A reader at the start of a reply. -/
def start {σ : Type} (stream : σ) (buffer : ReadBuffer) : Reader σ := ⟨stream, buffer, true⟩

/-- Bounds the bytes still to be taken. -/
def load {σ : Type} (src : Source σ) (r : Reader σ) : Nat :=
  r.buffer.unread.length + src.budget r.stream

end Reader

/-- What ends a field or an item. -/
inductive Terminator
  | field
  | item
  | line
deriving Repr, DecidableEq

namespace Wire

/-- The end that a byte marks; an item ends only where lists are split. -/
def terminator? (split : Bool) (b : UInt8) : Option Terminator :=
  if b = fieldSeparator then some .field
  else if b = lineEnd then some .line
  else if split && b == listSeparator then some .item
  else none

end Wire

namespace Reader

variable {σ : Type}

/-- The error of a stream that ends within a reply. -/
def endOfStream : ProtocolError :=
  .io ⟨.unexpectedEof, "connection closed before the response was complete"⟩

/-- Refills the buffer by one read. -/
def fill (src : Source σ) (r : Reader σ) : Except ProtocolError Unit × Reader σ :=
  match src.read r.buffer.capacity r.stream with
  | (.bytes [], s) => (.error endOfStream, ⟨s, r.buffer.clear, r.atLineEnd⟩)
  | (.bytes (b :: bs), s) => (.ok (), ⟨s, ⟨r.buffer.capacity, b :: bs⟩, r.atLineEnd⟩)
  | (.failed e, s) => (.error (.io e), ⟨s, r.buffer.clear, r.atLineEnd⟩)
  | (.nothing, s) => (.error (.ofSilence src.limit), ⟨s, r.buffer.clear, r.atLineEnd⟩)

/-- Refills the buffer if nothing is left in it. -/
def ensure (src : Source σ) (r : Reader σ) : Except ProtocolError Unit × Reader σ :=
  match r.buffer.unread with
  | [] => fill src r
  | _ :: _ => (.ok (), r)

theorem load_fill (src : Source σ) (r : Reader σ) : (fill src r).2.load src ≤ r.load src := by
  have hs := src.read_budget r.buffer.capacity r.stream
  have hb := src.bytes_budget r.buffer.capacity r.stream
  unfold fill
  split <;> rename_i h <;> simp only [h] at hs hb <;>
    simp only [load, ReadBuffer.clear, List.length_nil]
  case h_2 => have := hb _ rfl; omega
  all_goals omega

theorem load_ensure (src : Source σ) (r : Reader σ) :
    (ensure src r).2.load src ≤ r.load src := by
  unfold ensure
  split
  · exact load_fill src r
  · exact Nat.le_refl _

theorem unread_fill (src : Source σ) (r : Reader σ) (h : (fill src r).1 = .ok ()) :
    (fill src r).2.buffer.unread ≠ [] := by
  unfold fill at h ⊢
  split at h <;> simp_all

theorem unread_ensure (src : Source σ) (r : Reader σ) (h : (ensure src r).1 = .ok ()) :
    (ensure src r).2.buffer.unread ≠ [] := by
  unfold ensure at h ⊢
  split
  · rename_i hu
    simp only [hu] at h
    exact unread_fill src r h
  · rename_i hu
    simp [hu]

/-- The reader after `rest` is all that is left in its buffer. -/
def leaving (r : Reader σ) (rest : Bytes) (atLineEnd : Bool) : Reader σ :=
  ⟨r.stream, ⟨r.buffer.capacity, rest⟩, atLineEnd⟩

/-- The complaint about a field that is too long. -/
def tooLong : ProtocolError := .format s!"field exceeds {maxFieldSize} bytes"

/-- Takes bytes up to the end of a field, in front of `acc` and the last first; gives also the
end and what follows it, if the bytes reach so far. -/
def takeField (split : Bool) (acc : Bytes) : Bytes → Bytes × Option (Terminator × Bytes)
  | [] => (acc, none)
  | b :: r =>
    match terminator? split b with
    | some t => (acc, some (t, r))
    | none => takeField split (b :: acc) r

theorem length_takeField {split : Bool} {acc b f rest : Bytes} {t : Terminator}
    (h : takeField split acc b = (f, some (t, rest))) : rest.length < b.length := by
  induction b generalizing acc with
  | nil => simp [takeField] at h
  | cons x xs ih =>
    simp only [takeField] at h
    split at h
    · simp only [Prod.mk.injEq, Option.some.injEq] at h
      simp [h.2.2]
    · have := ih h
      simp only [List.length_cons]
      omega

/-- Reads up to the end of a field. `acc` holds the bytes of it read before, the last first, and
`size` counts them. -/
def fieldFrom (src : Source σ) (split : Bool) (acc : Bytes) (size : Nat) (r : Reader σ) :
    Except ProtocolError (Bytes × Terminator) × Reader σ :=
  match _h : ensure src r with
  | (.error e, r') => (.error e, r')
  | (.ok (), r') =>
    match takeField split acc r'.buffer.unread with
    | (acc, some (t, rest)) => (.ok (acc.reverse, t), r'.leaving rest (t = .line))
    | (acc, none) =>
      let size := size + r'.buffer.unread.length
      let r'' := r'.leaving [] r'.atLineEnd
      if maxFieldSize < size then (.error tooLong, r'')
      else fieldFrom src split acc size r''
termination_by r.load src
decreasing_by
  have h1 := load_ensure src r
  have h2 := unread_ensure src r (by rw [_h])
  rw [_h] at h1 h2
  have : 0 < r'.buffer.unread.length := List.length_pos_iff.2 h2
  simp only [load, leaving, List.length_nil] at h1 ⊢
  omega

/-- Reading a field takes no bytes from elsewhere, and some bytes if it succeeds. -/
theorem load_fieldFrom (src : Source σ) (split : Bool) (acc : Bytes) (size : Nat)
    (r : Reader σ) :
    (fieldFrom src split acc size r).2.load src ≤ r.load src ∧
      ∀ f, (fieldFrom src split acc size r).1 = .ok f →
        (fieldFrom src split acc size r).2.load src < r.load src := by
  fun_induction fieldFrom src split acc size r with
  | case1 acc size r e r' h =>
    have h1 := load_ensure src r
    rw [h] at h1
    exact ⟨h1, by simp⟩
  | case2 acc size r r' h acc' t rest ht =>
    have h1 := load_ensure src r
    rw [h] at h1
    have h2 := length_takeField ht
    simp only [load, leaving] at h1 ⊢
    exact ⟨by omega, fun _ _ => by omega⟩
  | case3 acc size r r' h acc' ht size' r'' hs =>
    have h1 := load_ensure src r
    rw [h] at h1
    refine ⟨?_, by simp⟩
    simp only [load, leaving, List.length_nil, r''] at h1 ⊢
    omega
  | case4 acc size r r' h acc' ht size' r'' hs ih =>
    have h1 := load_ensure src r
    rw [h] at h1
    have h3 : r''.load src ≤ r.load src := by
      simp only [load, leaving, List.length_nil, r''] at h1 ⊢
      omega
    exact ⟨Nat.le_trans ih.1 h3, fun f hf => Nat.lt_of_lt_of_le (ih.2 f hf) h3⟩

/-- Passes over the rest of the line. -/
def skipLine (src : Source σ) (r : Reader σ) : Except ProtocolError Unit × Reader σ :=
  if r.atLineEnd then (.ok (), r)
  else
    match _h : ensure src r with
    | (.error e, r') => (.error e, r')
    | (.ok (), r') =>
      match r'.buffer.unread.dropWhile (· ≠ lineEnd) with
      | _ :: rest => (.ok (), r'.leaving rest true)
      | [] => skipLine src (r'.leaving [] r'.atLineEnd)
termination_by r.load src
decreasing_by
  have h1 := load_ensure src r
  have h2 := unread_ensure src r (by rw [_h])
  rw [_h] at h1 h2
  have : 0 < r'.buffer.unread.length := List.length_pos_iff.2 h2
  simp only [load, leaving, List.length_nil] at h1 ⊢
  omega

theorem load_skipLine (src : Source σ) (r : Reader σ) :
    (skipLine src r).2.load src ≤ r.load src := by
  fun_induction skipLine src r with
  | case1 => exact Nat.le_refl _
  | case2 r _ e r' h =>
    have h1 := load_ensure src r
    rw [h] at h1
    exact h1
  | case3 r _ r' h b rest ht =>
    have h1 := load_ensure src r
    rw [h] at h1
    have h2 : (b :: rest).length ≤ r'.buffer.unread.length := by
      rw [← ht]
      exact (List.dropWhile_sublist _).length_le
    simp only [load, leaving, List.length_cons] at h1 h2 ⊢
    omega
  | case4 r _ r' h ht ih =>
    have h1 := load_ensure src r
    rw [h] at h1
    refine Nat.le_trans ih ?_
    simp only [load, leaving, List.length_nil] at h1 ⊢
    omega

end Reader

end TagStore
