import TagStore.Bytes

/-!
# Literals and copies

Both compressors describe data as literal bytes and copies of bytes that stand a given distance
back in what has been produced so far. `copyBack` makes such a copy; `tokenize` finds a description
of given data. A table of the last place of each four bytes only proposes places to copy from: a
copy is taken for as many bytes as really agree, so its choice cannot make the description wrong.
-/

namespace TagStore.Compression

/-- One step of a description. A copy may reach into the bytes that it produces itself. -/
inductive Token
  | literal (b : UInt8)
  | copy (length distance : Nat)
deriving Repr, DecidableEq

/-- Appends `n` bytes, each the one that stands `distance` back at its time. -/
def copyBack (distance : Nat) (out : Array UInt8) : Nat → Array UInt8
  | 0 => out
  | n + 1 => copyBack distance (out.push (out.getD (out.size - distance) 0)) n

/-- Which copies a format can write. Copies take at least four bytes and end at least `tail` bytes
before the end of the data. -/
structure CopyRule where
  maxLength : Nat
  maxDistance : Nat
  tail : Nat
deriving Repr, DecidableEq

/-- The fewest bytes that a copy takes. -/
def minCopy : Nat := 4

/-- How many of at most `n` bytes from place `i` on agree with those from place `j` on; `k` have
been found to agree before. -/
def agreement (data : Array UInt8) (i j k : Nat) : Nat → Nat
  | 0 => k
  | n + 1 =>
    if data.getD (i + k) 0 = data.getD (j + k) 0 then agreement data i j (k + 1) n else k

/-- The number of places that the table of proposals holds. -/
def tableSize : Nat := 16381

/-- The place of the four bytes at `i` in the table of proposals. -/
def slot (data : Array UInt8) (i : Nat) : Nat :=
  let at' (k : Nat) := (data.getD (i + k) 0).toNat
  (((at' 0 * 256 + at' 1) * 256 + at' 2) * 256 + at' 3) % tableSize

/-- The copy that the rule allows at place `i` from place `j`, if the bytes agree for long
enough. -/
def copyAt (rule : CopyRule) (data : Array UInt8) (i j : Nat) : Option Nat :=
  if j < i ∧ i - j ≤ rule.maxDistance then
    let n := agreement data j i 0 (min rule.maxLength (data.size - rule.tail - i))
    if minCopy ≤ n then some n else none
  else none

/-- A description of the data from place `i` on. `table` holds one more than the last place of
each four bytes met, `acc` the steps before, the last first. -/
def tokenizeFrom (rule : CopyRule) (data : Array UInt8) (i : Nat) (table : Array Nat)
    (acc : List Token) : List Token :=
  if h : i < data.size then
    let s := slot data i
    let proposal := table.getD s 0
    let table := table.setIfInBounds s (i + 1)
    match proposal with
    | 0 => tokenizeFrom rule data (i + 1) table (.literal data[i] :: acc)
    | j + 1 =>
      match copyAt rule data i j with
      | some n =>
        if 0 < n then tokenizeFrom rule data (i + n) table (.copy n (i - j) :: acc)
        else tokenizeFrom rule data (i + 1) table (.literal data[i] :: acc)
      | none => tokenizeFrom rule data (i + 1) table (.literal data[i] :: acc)
  else acc.reverse
termination_by data.size - i

/-- A description of the data within a rule. -/
def tokenize (rule : CopyRule) (data : Bytes) : List Token :=
  tokenizeFrom rule data.toArray 0 (Array.replicate tableSize 0) []

end TagStore.Compression
