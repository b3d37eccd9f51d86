import TagStore.Client.Error
import TagStore.Client.StoreOptions
import TagStore.Payload
import TagStore.Text.Blank
import TagStore.Wire.Request

/-!
# The requests of a client

Every operation has its line. What a caller gives is checked before the line is written, so that no
key, tag or version can end its field early and no key can pass for an absent one. A value that the
server is known to refuse for its size is not sent at all.
-/

namespace TagStore

open Wire

/-- How a client writes keys and values, and the greatest size of a value's field, if known. -/
structure Profile where
  keys : Encoding
  payload : PayloadCodec
  maxValueSize : Option Nat

namespace Profile

/-- Refuses a key that cannot be sent. -/
def checkKey (p : Profile) (key : String) : Except ClientError Unit :=
  if key = "" then .error (.invalidArgument "key must not be empty")
  else if key.toList.any Text.isControl then
    .error (.invalidArgument s!"key {Text.quote key} contains control characters")
  else if p.keys = .raw ∧
      ((Bytes.ofString key).any isDelimiter ∨ Bytes.ofString key = absent) then
    .error (.invalidArgument s!"key {Text.quote key} cannot be sent unencoded")
  else .ok ()

/-- Refuses a tag that cannot be sent. -/
def checkTag (tag : String) : Except ClientError Unit :=
  if tag = "" ∨ tag.toList.any Text.isControl then
    .error (.invalidArgument s!"invalid tag {Text.quote tag}")
  else .ok ()

/-- Refuses a version that cannot be sent. -/
def checkVersion (version : String) : Except ClientError Unit :=
  if version = "" ∨ (Bytes.ofString version).any isDelimiter then
    .error (.invalidArgument s!"invalid version token {Text.quote version}")
  else .ok ()

/-- Refuses a payload whose field is greater than the server takes. -/
def checkSize (p : Profile) (payload : Bytes) : Except ClientError Unit :=
  match p.maxValueSize with
  | none => .ok ()
  | some limit =>
    let size := Base64.encodedLength payload.length
    if limit < size then
      .error (.operation .valueTooLarge
        s!"encoded value of {size} bytes exceeds server limit of {limit}")
    else .ok ()

/-- The payload of a value under a key. -/
def payloadOf (p : Profile) (key : String) (value : Option Value) : Except ClientError Bytes :=
  match value with
  | none => .error (.invalidArgument "okuyama cannot store a null value")
  | some v => (p.payload.encode key v).mapError (.ofProtocol .response)

/-- The request of a write. -/
def write (p : Profile) (op : Opcode) (key : String) (value : Option Value)
    (version : Option String) (options : StoreOptions) : Except ClientError Request := do
  p.checkKey key
  options.tags.forM checkTag
  let payload ← p.payloadOf key value
  p.checkSize payload
  pure ⟨op,
    [.text (some key) p.keys, .list options.tags .base64, .number 0, .blob payload] ++
      (version.map fun v => .text (some v) .raw).toList ++ [.number options.expireSecs, .empty]⟩

/-- Asks for the greatest size of a value. -/
def init : Request := ⟨.init, []⟩

/-- Asks for the version of the node. -/
def version : Request := ⟨.masterNodeVersion, []⟩

/-- Stores a value. -/
def set (p : Profile) (key : String) (value : Option Value) (options : StoreOptions) :
    Except ClientError Request :=
  p.write .set key value none options

/-- Stores a value under a new key. -/
def add (p : Profile) (key : String) (value : Option Value) (options : StoreOptions) :
    Except ClientError Request :=
  p.write .add key value none options

/-- Stores a value in place of one of a version. -/
def setVersioned (p : Profile) (key : String) (value : Option Value) (version : String)
    (options : StoreOptions) : Except ClientError Request := do
  checkVersion version
  p.write .setVersioned key value (some version) options

/-- Asks for the value of a key. -/
def get (p : Profile) (key : String) : Except ClientError Request := do
  p.checkKey key
  pure ⟨.get, [.text (some key) p.keys]⟩

/-- Takes a key and its value away. -/
def remove (p : Profile) (key : String) : Except ClientError Request := do
  p.checkKey key
  pure ⟨.remove, [.text (some key) p.keys, .number 0]⟩

/-- Asks for the value of a key and its version. -/
def getVersioned (p : Profile) (key : String) : Except ClientError Request := do
  p.checkKey key
  pure ⟨.getVersioned, [.text (some key) p.keys]⟩

/-- Asks for the values of several keys. -/
def getMulti (p : Profile) (keys : List String) : Except ClientError Request := do
  keys.forM p.checkKey
  pure ⟨.getMulti, keys.map fun key => .text (some key) p.keys⟩

/-- Asks for the keys that carry a tag. -/
def getTagKeys (tag : String) (includeDeleted : Bool) : Except ClientError Request := do
  checkTag tag
  pure ⟨.getTagKeys,
    [.text (some tag) .base64, .text (some (if includeDeleted then "true" else "false")) .raw]⟩

/-- Asks for the keys that carry a tag and their values. -/
def getPairsByTag (tag : String) : Except ClientError Request := do
  checkTag tag
  pure ⟨.getPairsByTag, [.text (some tag) .base64]⟩

end Profile

end TagStore
