/-!
# Blank and control characters

The characters that count as white space when the ends of a text are trimmed, and the control
characters. Both follow the character database: white space is the property of that name, and the
control characters are the two blocks of general category control.
-/

namespace TagStore.Text

/-- Whether a character is white space. -/
def isBlank (c : Char) : Bool :=
  let n := c.toNat
  (9 ≤ n && n ≤ 13) || n == 0x20 || n == 0x85 || n == 0xA0 || n == 0x1680 ||
    (0x2000 ≤ n && n ≤ 0x200A) || n == 0x2028 || n == 0x2029 || n == 0x202F || n == 0x205F ||
    n == 0x3000

/-- Whether a character is a control character. -/
def isControl (c : Char) : Bool := c.toNat < 0x20 || (0x7F ≤ c.toNat && c.toNat < 0xA0)

/-- The characters without the white space at either end. -/
def trimChars (cs : List Char) : List Char :=
  (((cs.dropWhile isBlank).reverse).dropWhile isBlank).reverse

/-- The text without the white space at either end. -/
def trim (s : String) : String := String.ofList (trimChars s.toList)

end TagStore.Text
