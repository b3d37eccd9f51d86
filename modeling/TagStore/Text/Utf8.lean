import TagStore.Bytes

/-!
# UTF-8

Reading bytes as text. `decode?` accepts exactly the well-formed runs. `pieces` cuts any run into
characters and the shortest parts that no character can start with; from it come the place and
kind of the first fault (`fault`) and the forgiving reading (`lossy`), which puts one replacement
character for each such part.
-/

namespace TagStore.Utf8

/-- The text of a well-formed run of bytes. -/
def decode? (b : Bytes) : Option String := String.fromUTF8? ⟨b.toArray⟩

/-- What stands at the head of a run: a character, bytes that no character starts with, or the
start of a character that the run ends within. -/
inductive Piece
  | char (c : Char) (width : Nat)
  | invalid (width : Nat)
  | incomplete (width : Nat)
deriving Repr, DecidableEq

/-- The number of bytes a piece covers. -/
def Piece.width : Piece → Nat
  | char _ n | invalid n | incomplete n => n

/-- The bytes that must follow a first byte, and the range of the first of them. -/
def following? (a : UInt8) : Option (Nat × UInt8 × UInt8) :=
  if 0xC2 ≤ a ∧ a ≤ 0xDF then some (1, 0x80, 0xBF)
  else if a = 0xE0 then some (2, 0xA0, 0xBF)
  else if a = 0xED then some (2, 0x80, 0x9F)
  else if 0xE1 ≤ a ∧ a ≤ 0xEF then some (2, 0x80, 0xBF)
  else if a = 0xF0 then some (3, 0x90, 0xBF)
  else if 0xF1 ≤ a ∧ a ≤ 0xF3 then some (3, 0x80, 0xBF)
  else if a = 0xF4 then some (3, 0x80, 0x8F)
  else none

/-- Reads `n` more bytes of a character, the next within `lo` and `hi`, after `taken` bytes whose
payload bits are `acc`. -/
def follow (n : Nat) (lo hi : UInt8) (acc taken : Nat) (b : Bytes) : Piece :=
  match n, b with
  | 0, _ => .char (Char.ofNat acc) taken
  | _ + 1, [] => .incomplete taken
  | n + 1, x :: r =>
    if lo ≤ x ∧ x ≤ hi then follow n 0x80 0xBF (acc * 64 + x.toNat % 64) (taken + 1) r
    else .invalid taken

/-- The piece at the head of a run. -/
def head : Bytes → Piece
  | [] => .incomplete 0
  | a :: r =>
    if a < 0x80 then .char (Char.ofNat a.toNat) 1
    else match following? a with
      | none => .invalid 1
      | some (n, lo, hi) => follow n lo hi (a.toNat % (1 <<< (6 - n))) 1 r

/-- The pieces of a run from left to right; `acc` holds those before it, the last first. -/
def piecesTo (acc : List Piece) (b : Bytes) : List Piece :=
  match b with
  | [] => acc.reverse
  | a :: r =>
    let p := head (a :: r)
    piecesTo (p :: acc) (r.drop (p.width - 1))
termination_by b.length
decreasing_by
  rw [List.length_drop, List.length_cons]
  omega

/-- The pieces of a run from left to right. -/
def pieces (b : Bytes) : List Piece := piecesTo [] b

/-- Why a run is no text: where its first fault stands, and how many bytes it covers unless the
run merely ends too early. -/
structure Fault where
  position : Nat
  width : Option Nat
deriving Repr, DecidableEq

/-- The first fault among pieces, the first of which starts at `position`. -/
def faultIn (position : Nat) : List Piece → Fault
  | [] => ⟨position, none⟩
  | .char _ n :: r => faultIn (position + n) r
  | .invalid n :: _ => ⟨position, some n⟩
  | .incomplete _ :: _ => ⟨position, none⟩

/-- The first fault of a run that is not well formed. -/
def fault (b : Bytes) : Fault := faultIn 0 (pieces b)

/-- The sentence that reports a fault. -/
def Fault.message (f : Fault) : String :=
  match f.width with
  | some n => s!"invalid utf-8 sequence of {n} bytes from index {f.position}"
  | none => s!"incomplete utf-8 byte sequence from index {f.position}"

/-- The character a forgiving reader shows for a piece. -/
def Piece.shown : Piece → Char
  | .char c _ => c
  | .invalid _ | .incomplete _ => Char.ofNat 0xFFFD

/-- The text of a run, each ill-formed part read as one replacement character. -/
def lossy (b : Bytes) : String :=
  match decode? b with
  | some s => s
  | none => String.ofList ((pieces b).map Piece.shown)

/-- The UTF-8 form of a text reads back as that text. -/
@[simp] theorem decode?_ofString (s : String) : decode? (Bytes.ofString s) = some s := by
  change String.fromUTF8? ⟨s.toUTF8.data.toList.toArray⟩ = some s
  have h : (⟨s.toUTF8.data.toList.toArray⟩ : ByteArray) = s.toByteArray := by simp
  rw [h, String.fromUTF8?, dif_pos (by simpa using s.isValidUTF8)]
  rfl

end TagStore.Utf8
