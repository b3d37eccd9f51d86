import TagStore.Json.Basic
import TagStore.Text.Decimal

/-!
# Reading JSON

A text is read in two steps. `Tree` holds its structure as written: members in order, repeated
keys included, numbers that are too great and strings with half a surrogate pair kept as parts
without a value. `Tree.value?` then asks for a value throughout, lets the last of repeated keys
win and bounds the depth of nesting. A reader that ignores a part stops at the first step.
-/

namespace TagStore.Json

/-- The structure of a JSON text; `none` marks a number or string that is well formed and has no
value. -/
inductive Tree
  | null
  | bool (b : Bool)
  | number (n : Option Number)
  | string (s : Option String)
  | array (items : List Tree)
  | object (members : List (Option String × Tree))
deriving Inhabited

namespace Parser

/-- Whether a character may stand between the parts of a text. -/
def isSpace (c : Char) : Bool := c == ' ' || c == '\n' || c == '\t' || c == '\r'

/-- Leaves out leading blanks. -/
def skip (cs : List Char) : List Char := cs.dropWhile isSpace

/-- The value of a digit. -/
def digitValue (c : Char) : Nat := c.toNat - 48

/-- The digits at the head of a text and what follows them. -/
def digits (cs : List Char) : List Nat × List Char :=
  let (ds, r) := cs.span Text.isDigit
  (ds.map digitValue, r)

/-- The exponent at the head of a text: whether it is negative, and its digits. -/
def exponent : List Char → Option (Option (Bool × List Nat) × List Char)
  | c :: r =>
    if c = 'e' ∨ c = 'E' then
      let (down, r) := match r with
        | '+' :: r => (false, r)
        | '-' :: r => (true, r)
        | r => (false, r)
      match digits r with
      | ([], _) => none
      | (ds, r) => some (some (down, ds), r)
    else some (none, c :: r)
  | [] => some (none, [])

/-- The number at the head of a text. -/
def number (cs : List Char) : Option (Number.Written × List Char) :=
  let (negative, cs) := match cs with
    | '-' :: r => (true, r)
    | r => (false, r)
  match digits cs with
  | ([], _) => none
  | (0 :: _ :: _, _) => none
  | (ws, '.' :: r) =>
    match digits r with
    | ([], _) => none
    | (ds, r) => (exponent r).map fun (e, r) => (⟨negative, ws, ds, e⟩, r)
  | (ws, r) => (exponent r).map fun (e, r) => (⟨negative, ws, [], e⟩, r)

/-- The number that four hexadecimal digits at the head of a text write. -/
def hex4 : List Char → Option (Nat × List Char)
  | a :: b :: c :: d :: r => do
    let a ← Bytes.hexValue? a
    let b ← Bytes.hexValue? b
    let c ← Bytes.hexValue? c
    let d ← Bytes.hexValue? d
    some (((a * 16 + b) * 16 + c) * 16 + d, r)
  | _ => none

/-- The character of a one-letter escape. -/
def escape? : Char → Option Char
  | '"' => some '"'
  | '\\' => some '\\'
  | '/' => some '/'
  | 'b' => some '\x08'
  | 'f' => some '\x0c'
  | 'n' => some '\n'
  | 'r' => some '\r'
  | 't' => some '\t'
  | _ => none

/-- A unit of a string: a character, or one half of a surrogate pair from an escape. -/
inductive Unit16
  | char (c : Char)
  | half (n : Nat)

/-- The unit of an escape of four hexadecimal digits. -/
def Unit16.ofNat (n : Nat) : Unit16 :=
  if 0xD800 ≤ n ∧ n ≤ 0xDFFF then .half n else .char (Char.ofNat n)

/-- The units of the string whose opening quote stands before the text; `acc` holds those before,
the last first. -/
def units (fuel : Nat) (acc : List Unit16) (cs : List Char) : Option (List Unit16 × List Char) :=
  match fuel, cs with
  | fuel + 1, c :: r =>
    if c = '"' then some (acc.reverse, r)
    else if c = '\\' then
      match r with
      | 'u' :: r =>
        match hex4 r with
        | some (n, r) => units fuel (.ofNat n :: acc) r
        | none => none
      | e :: r =>
        match escape? e with
        | some c => units fuel (.char c :: acc) r
        | none => none
      | [] => none
    else if c.toNat < 0x20 then none
    else units fuel (.char c :: acc) r
  | _, _ => none

/-- The characters of units, each two fitting halves joined; `acc` holds those before, the last
first. -/
def joinHalves (acc : List Char) : List Unit16 → Option (List Char)
  | [] => some acc.reverse
  | .char c :: r => joinHalves (c :: acc) r
  | .half h :: .half l :: r =>
    if h ≤ 0xDBFF ∧ 0xDC00 ≤ l then
      joinHalves (Char.ofNat (0x10000 + (h - 0xD800) * 0x400 + (l - 0xDC00)) :: acc) r
    else none
  | .half _ :: _ => none

/-- The string whose opening quote stands before the text. -/
def string (cs : List Char) : Option (Option String × List Char) :=
  (units (cs.length + 1) [] cs).map fun (us, r) => ((joinHalves [] us).map String.ofList, r)

/-- The rest of a text after a word it must start with. -/
def word : List Char → List Char → Option (List Char)
  | [], cs => some cs
  | w :: ws, c :: cs => if w = c then word ws cs else none
  | _ :: _, [] => none

mutual

/-- The value at the head of a text. -/
def value (fuel : Nat) (cs : List Char) : Option (Tree × List Char) :=
  match fuel with
  | 0 => none
  | fuel + 1 =>
    match skip cs with
    | [] => none
    | c :: r =>
      if c = '"' then (string r).map fun (s, r) => (.string s, r)
      else if c = '[' then
        match skip r with
        | ']' :: r => some (.array [], r)
        | r => (items fuel [] r).map fun (vs, r) => (.array vs, r)
      else if c = '\x7b' then
        match skip r with
        | '\x7d' :: r => some (.object [], r)
        | r => (members fuel [] r).map fun (ms, r) => (.object ms, r)
      else if c = 'n' then (word ['u', 'l', 'l'] r).map fun r => (.null, r)
      else if c = 't' then (word ['r', 'u', 'e'] r).map fun r => (.bool true, r)
      else if c = 'f' then (word ['a', 'l', 's', 'e'] r).map fun r => (.bool false, r)
      else (number (c :: r)).map fun (w, r) => (.number (Number.ofWritten? w), r)

/-- The items of an array up to its closing bracket; `acc` holds those before, the last first. -/
def items (fuel : Nat) (acc : List Tree) (cs : List Char) : Option (List Tree × List Char) :=
  match fuel with
  | 0 => none
  | fuel + 1 =>
    match value fuel cs with
    | none => none
    | some (v, r) =>
      match skip r with
      | ',' :: r => items fuel (v :: acc) r
      | ']' :: r => some ((v :: acc).reverse, r)
      | _ => none

/-- The members of an object up to its closing brace; `acc` holds those before, the last
first. -/
def members (fuel : Nat) (acc : List (Option String × Tree)) (cs : List Char) :
    Option (List (Option String × Tree) × List Char) :=
  match fuel with
  | 0 => none
  | fuel + 1 =>
    match skip cs with
    | '"' :: r =>
      match string r with
      | none => none
      | some (k, r) =>
        match skip r with
        | ':' :: r =>
          match value fuel r with
          | none => none
          | some (v, r) =>
            match skip r with
            | ',' :: r => members fuel ((k, v) :: acc) r
            | '\x7d' :: r => some (((k, v) :: acc).reverse, r)
            | _ => none
        | _ => none
    | _ => none

end

end Parser

/-- The structure of a whole text. Every second step of the reader passes a character, so twice
the length of the text bounds the steps. -/
def Tree.read? (s : String) : Option Tree :=
  let cs := s.toList
  match Parser.value (2 * cs.length + 2) cs with
  | some (t, r) => if Parser.skip r = [] then some t else none
  | none => none

mutual

/-- The value of a tree whose brackets nest at most `depth` deep. -/
def Tree.valueWithin? (depth : Nat) : Tree → Option Json
  | .null => some .null
  | .bool b => some (.bool b)
  | .number n => n.map .number
  | .string s => s.map .string
  | .array ts =>
    match depth with
    | 0 => none
    | depth + 1 => (Tree.itemsWithin? depth ts).map .array
  | .object ms =>
    match depth with
    | 0 => none
    | depth + 1 => (Tree.membersWithin? depth ms).map Json.ofMembers

/-- The values of the items of an array. -/
def Tree.itemsWithin? (depth : Nat) : List Tree → Option (List Json)
  | [] => some []
  | t :: r => do
    let v ← Tree.valueWithin? depth t
    let vs ← Tree.itemsWithin? depth r
    some (v :: vs)

/-- The values of the members of an object. -/
def Tree.membersWithin? (depth : Nat) :
    List (Option String × Tree) → Option (List (String × Json))
  | [] => some []
  | (k, t) :: r => do
    let k ← k
    let v ← Tree.valueWithin? depth t
    let vs ← Tree.membersWithin? depth r
    some ((k, v) :: vs)

end

/-- How deep brackets may nest. -/
def maxDepth : Nat := 127

/-- The value of a tree. -/
def Tree.value? (t : Tree) : Option Json := t.valueWithin? maxDepth

/-- The value that a text writes. -/
def parse? (s : String) : Option Json := (Tree.read? s).bind Tree.value?

end TagStore.Json
