import TagStore.Json.Number
import TagStore.Bytes

/-!
# JSON values

A JSON value whose objects list their members by increasing key, each key once. `render` writes a
value without blanks, `renderIndented` over several lines.
-/

namespace TagStore

/-- A JSON value. The members of an object are kept by increasing key. -/
inductive Json
  | null
  | bool (b : Bool)
  | number (n : Json.Number)
  | string (s : String)
  | array (items : List Json)
  | object (members : List (String × Json))
deriving Repr, BEq, Inhabited

namespace Json

/-- Puts a member in its place by key; a member of the same key gives way. -/
def insertMember (key : String) (value : Json) : List (String × Json) → List (String × Json)
  | [] => [(key, value)]
  | (k, v) :: r =>
    if key < k then (key, value) :: (k, v) :: r
    else if key = k then (key, value) :: r
    else (k, v) :: insertMember key value r

/-- The object with the given members; of several members of one key the last stays. -/
def ofMembers (members : List (String × Json)) : Json :=
  .object (members.foldl (fun acc (k, v) => insertMember k v acc) [])

/-- One character inside the quotes of a string. -/
def escapeChar (c : Char) : List Char :=
  if c = '"' then ['\\', '"']
  else if c = '\\' then ['\\', '\\']
  else if c = '\n' then ['\\', 'n']
  else if c = '\r' then ['\\', 'r']
  else if c = '\t' then ['\\', 't']
  else if c = '\x08' then ['\\', 'b']
  else if c = '\x0c' then ['\\', 'f']
  else if c.toNat < 0x20 then
    ['\\', 'u', '0', '0', Bytes.hexDigit (c.toNat / 16), Bytes.hexDigit (c.toNat % 16)]
  else [c]

/-- A string between quotes. -/
def renderString (s : String) : String :=
  String.ofList ('"' :: (s.toList.flatMap escapeChar ++ ['"']))

/-- Texts put one after the other with a text between each two. -/
def joined (sep : String) (parts : List String) : String := sep.intercalate parts

mutual

/-- The text of a value, without blanks. -/
def render : Json → String
  | .null => "null"
  | .bool b => if b then "true" else "false"
  | .number n => n.text
  | .string s => renderString s
  | .array items => "[" ++ joined "," (renderItems items) ++ "]"
  | .object members => "\x7b" ++ joined "," (renderMembers members) ++ "\x7d"

/-- The texts of the items of an array. -/
def renderItems : List Json → List String
  | [] => []
  | v :: r => render v :: renderItems r

/-- The texts of the members of an object. -/
def renderMembers : List (String × Json) → List String
  | [] => []
  | (k, v) :: r => (renderString k ++ ":" ++ render v) :: renderMembers r

end

/-- A line break and two spaces for each level. -/
def lineBreak (level : Nat) : String := "\n" ++ String.ofList (List.replicate (2 * level) ' ')

/-- Parts on lines of their own between brackets; without parts the brackets alone. -/
def bracketed (level : Nat) (first last : String) (parts : List String) : String :=
  match parts with
  | [] => first ++ last
  | _ =>
    first ++ lineBreak (level + 1) ++ joined ("," ++ lineBreak (level + 1)) parts ++
      lineBreak level ++ last

mutual

/-- The text of a value over several lines; `level` counts the brackets around it. -/
def renderAt (level : Nat) : Json → String
  | .array items => bracketed level "[" "]" (renderItemsAt (level + 1) items)
  | .object members => bracketed level "\x7b" "\x7d" (renderMembersAt (level + 1) members)
  | .null => "null"
  | .bool b => if b then "true" else "false"
  | .number n => n.text
  | .string s => renderString s

/-- The texts of the items of an array, each below `level` brackets. -/
def renderItemsAt (level : Nat) : List Json → List String
  | [] => []
  | v :: r => renderAt level v :: renderItemsAt level r

/-- The texts of the members of an object, each below `level` brackets. -/
def renderMembersAt (level : Nat) : List (String × Json) → List String
  | [] => []
  | (k, v) :: r => (renderString k ++ ": " ++ renderAt level v) :: renderMembersAt level r

end

/-- The text of a value over several lines. -/
def renderIndented (v : Json) : String := renderAt 0 v

end Json

end TagStore
