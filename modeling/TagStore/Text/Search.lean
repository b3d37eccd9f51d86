/-!
# Looking into texts

Whether a text starts with another or holds another.
-/

namespace TagStore.Text

/-- What follows a text that another one starts with. -/
def after? : List Char → List Char → Option (List Char)
  | [], cs => some cs
  | p :: ps, c :: cs => if p = c then after? ps cs else none
  | _ :: _, [] => none

/-- What follows `start` in a text that starts with it. -/
def dropStart? (start s : String) : Option String :=
  (after? start.toList s.toList).map String.ofList

/-- Whether a text starts with `start`. -/
def starts (start s : String) : Bool := (after? start.toList s.toList).isSome

/-- Whether `part` stands somewhere in a text. -/
def holdsChars (part : List Char) : List Char → Bool
  | [] => part.isEmpty
  | c :: cs => (after? part (c :: cs)).isSome || holdsChars part cs

/-- Whether `part` stands somewhere in a text. -/
def holds (part s : String) : Bool := holdsChars part.toList s.toList

end TagStore.Text
