import TagStore.Base64
import TagStore.Text.Utf8

/-!
# Fields of a line

Requests and replies are lines of fields. Three bytes are set apart: one ends a field, one ends an
item of a list within a field, and one ends the line. A text travels as it is or in Base64; a field
that holds nothing at all has a form of its own.
-/

namespace TagStore.Wire

/-- Ends a field. -/
def fieldSeparator : UInt8 := 44

/-- Ends an item of a list. -/
def listSeparator : UInt8 := 58

/-- Ends a line. -/
def lineEnd : UInt8 := 10

/-- Whether a byte ends an item, a field or a line. -/
def isDelimiter (b : UInt8) : Bool := b == fieldSeparator || b == listSeparator || b == lineEnd

/-- The field of an absent text. -/
def absent : Bytes := [40, 66, 41]

/-- The first field of the line that closes a reply of several lines. -/
def endMarker : Bytes := [69, 78, 68]

/-- The field that reports success. -/
def statusOk : Bytes := [116, 114, 117, 101]

/-- The field that reports failure. -/
def statusFailed : Bytes := [102, 97, 108, 115, 101]

/-- How many bytes a reader asks for at once unless told otherwise. -/
def readBlockSize : Nat := 8192

/-- The length that no field may pass: 512 MiB. -/
def maxFieldSize : Nat := 536870912

/-- How a text travels in a field. -/
inductive Encoding
  | raw
  | base64
deriving Repr, DecidableEq

/-- The bytes of a text in a field. -/
def Encoding.encode : Encoding → String → Bytes
  | raw, s => Bytes.ofString s
  | base64, s => Base64.encode (Bytes.ofString s)

/-- One field of a request. -/
inductive Field
  | number (n : Nat)
  | text (s : Option String) (e : Encoding)
  | list (items : List String) (e : Encoding)
  | blob (b : Bytes)
  | empty
deriving Repr, DecidableEq

/-- The decimal digits of a number. -/
def digits (n : Nat) : Bytes := (Nat.toDigits 10 n).map Bytes.ofChar

/-- Parts put one after the other with a byte between each two. -/
def joinWith (sep : UInt8) : List Bytes → Bytes
  | [] => []
  | p :: ps => p ++ ps.flatMap (sep :: ·)

/-- The bytes of a field. A list without items is absent. -/
def Field.bytes : Field → Bytes
  | number n => digits n
  | text none _ => absent
  | text (some s) e => e.encode s
  | list [] _ => absent
  | list items e => joinWith listSeparator (items.map e.encode)
  | blob b => Base64.encode b
  | empty => []

end TagStore.Wire
