/-!
# Decimal numbers

Unsigned numbers written in decimal digits, as settings and ports give them: at least one digit,
any number of leading zeros, one plus sign allowed in front, and a greatest value. A reading that
passes the greatest value at any digit is no number.
-/

namespace TagStore.Text

/-- Whether a character is a decimal digit. -/
def isDigit (c : Char) : Bool := '0' ≤ c && c ≤ '9'

/-- The value of a decimal digit. -/
def digit? (c : Char) : Option Nat := if isDigit c then some (c.toNat - 48) else none

/-- The number that the digits continue from `n`, unless it passes `limit` or a character is no
digit. -/
def digitsFrom (limit n : Nat) : List Char → Option Nat
  | [] => some n
  | c :: cs =>
    match digit? c with
    | none => none
    | some d => if n * 10 + d ≤ limit then digitsFrom limit (n * 10 + d) cs else none

/-- The number at most `limit` that a run of decimal digits writes. -/
def unsigned? (limit : Nat) (cs : List Char) : Option Nat :=
  match cs with
  | [] => none
  | '+' :: c :: r => digitsFrom limit 0 (c :: r)
  | c :: r => digitsFrom limit 0 (c :: r)

/-- The greatest number of sixteen bits. -/
def maxU16 : Nat := 65535

/-- The greatest number of 32 bits. -/
def maxU32 : Nat := 4294967295

/-- The greatest number of 64 bits. -/
def maxU64 : Nat := 18446744073709551615

end TagStore.Text
