import TagStore.Bytes

/-!
# Room for what is put out

What compressors and readers put out goes behind what is there already, as far as room has been set
aside for it.
-/

namespace TagStore.Compression

/-- What has been put out, and the length up to which there is room for it. -/
structure Output where
  bytes : Bytes
  capacity : Nat
  fits : bytes.length ≤ capacity

namespace Output

/-- The room that is set aside at a time. -/
def block : Nat := 4096

/-- The room that is left. -/
def room (o : Output) : Nat := o.capacity - o.bytes.length

/-- Bytes without room for more. -/
def ofBytes (b : Bytes) : Output := ⟨b, b.length, Nat.le_refl _⟩

/-- Sees to it that there is room for `n` bytes more. -/
def reserve (o : Output) (n : Nat) : Output :=
  ⟨o.bytes, max o.capacity (o.bytes.length + n), Nat.le_trans o.fits (Nat.le_max_left _ _)⟩

/-- Puts out as much as there is room for. -/
def fill (o : Output) (b : Bytes) : Output where
  bytes := o.bytes ++ b.take o.room
  capacity := o.capacity
  fits := by
    have h := o.fits
    rw [List.length_append, List.length_take, room]
    omega

/-- What does not fit in uses up the room. -/
theorem length_fill {o : Output} {b : Bytes} (h : o.room < b.length) :
    (o.fill b).bytes.length = (o.fill b).capacity := by
  have hfits := o.fits
  simp only [fill, room, List.length_append, List.length_take] at h ⊢
  omega

/-- What there is room for is put out whole. -/
theorem bytes_fill {o : Output} {b : Bytes} (h : b.length ≤ o.room) :
    (o.fill b).bytes = o.bytes ++ b :=
  congrArg (o.bytes ++ ·) (List.take_of_length_le h)

theorem room_reserve (o : Output) {n : Nat} (h : 0 < n) : 0 < (o.reserve n).room := by
  simp only [room, reserve]
  omega

theorem capacity_reserve_ofBytes (b : Bytes) (n : Nat) :
    ((ofBytes b).reserve n).capacity = b.length + n :=
  Nat.max_eq_right (Nat.le_add_right _ _)

theorem room_reserve_ofBytes (b : Bytes) (n : Nat) : ((ofBytes b).reserve n).room = n := by
  rw [room, capacity_reserve_ofBytes]
  exact Nat.add_sub_cancel_left _ _

end Output

end TagStore.Compression
