import TagStore.Json.Parser
import TagStore.Wire.Error

/-!
# Values

What is stored under a key: a text, an object, or bytes that are neither. An object is a JSON
value; it is stored as a mark of two bytes and its text.
-/

namespace TagStore

/-- A stored value. -/
inductive Value
  | text (s : String)
  | object (o : Json)
  | bytes (b : Bytes)
deriving Repr, BEq, Inhabited

namespace Value

/-- A value as a person sees it. -/
def display : Value → String
  | text s => s
  | object o => o.render
  | bytes b => "0x" ++ Bytes.toHex b

/-- The text of a text value. -/
def text? : Value → Option String
  | text s => some s
  | _ => none

/-- The bytes of a text or of bytes; an object has none of its own. -/
def rawBytes : Value → Bytes
  | text s => Bytes.ofString s
  | object _ => []
  | bytes b => b

/-- The value as JSON; bytes are none. -/
def json : Value → Except ObjectError Json
  | text s => .ok (.string s)
  | object o => .ok o
  | bytes _ => .error .notAnObject

/-- The string that a value holds. -/
def asString (v : Value) : Except ObjectError String :=
  match v.json with
  | .ok (.string s) => .ok s
  | .ok _ => .error (.json "not a string")
  | .error e => .error e

/-- The number of at most 32 bits that a value holds. -/
def asU32 (v : Value) : Except ObjectError Nat :=
  match v.json with
  | .ok (.number (.whole n)) =>
    if n ≤ Text.maxU32 then .ok n else .error (.json "number out of range")
  | .ok _ => .error (.json "not a number")
  | .error e => .error e

/-- The strings of an array, if it holds only strings. -/
def strings? : List Json → Option (List String)
  | [] => some []
  | .string s :: r => (strings? r).map (s :: ·)
  | _ :: _ => none

/-- The strings that a value holds. -/
def asStrings (v : Value) : Except ObjectError (List String) :=
  match v.json with
  | .ok (.array items) =>
    match strings? items with
    | some ss => .ok ss
    | none => .error (.json "not a list of strings")
  | .ok _ => .error (.json "not a list")
  | .error e => .error e

end Value

/-- A value together with the token that names its version. -/
structure VersionedValue where
  value : Value
  version : String
deriving Repr, BEq, Inhabited

/-- A key together with its value. -/
structure Pair where
  key : String
  value : Value
deriving Repr, BEq, Inhabited

/-- A way to store objects as bytes. `json` marks the text of the object; `unmarked` leaves the
mark out and reads nothing. -/
inductive ObjectCodec
  | json
  | unmarked
deriving Repr, DecidableEq

namespace ObjectCodec

/-- What a stored object starts with. -/
def magic : Bytes := [0xAC, 0xED]

/-- The bytes of an object. -/
def encode : ObjectCodec → Json → Bytes
  | json, o => magic ++ Bytes.ofString o.render
  | unmarked, o => Bytes.ofString o.render

/-- The object of bytes. -/
def decode : ObjectCodec → Bytes → Except ObjectError Json
  | json, b =>
    if magic.isPrefixOf b then
      match (Utf8.decode? (b.drop magic.length)).bind Json.parse? with
      | some o => .ok o
      | none => .error (.json "invalid text")
    else .error .missingMagic
  | unmarked, _ => .error .notAnObject

end ObjectCodec

end TagStore
