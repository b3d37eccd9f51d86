import TagStore.Value
import TagStore.Compression.Strategy

/-!
# Payloads

The bytes of a value as they are stored. A text is its UTF-8 form, unless texts are stored as
objects; an object is what the object codec makes of it; bytes are themselves. A long payload is
put into a compression frame. Reading tells these apart by how the bytes start, and takes what is
neither frame nor object for a text if it is well formed.
-/

namespace TagStore

/-- How values become bytes. -/
structure PayloadCodec where
  compressors : CompressorRegistry
  strategy : CompressionStrategy
  objects : ObjectCodec
  serializeStrings : Bool
deriving Repr, DecidableEq

namespace PayloadCodec

/-- The codec of a client that is not told otherwise. -/
def standard : PayloadCodec := ⟨.standard, .standard, .json, false⟩

/-- The bytes of an object, which must carry the mark. -/
def encodeObject (c : PayloadCodec) (o : Json) : Except ProtocolError Bytes :=
  let b := c.objects.encode o
  if ObjectCodec.magic.isPrefixOf b then .ok b else .error (.objectCodec .missingMagic)

/-- The bytes of a value before compression. -/
def plain (c : PayloadCodec) : Value → Except ProtocolError Bytes
  | .text s => if c.serializeStrings then c.encodeObject (.string s) else .ok (Bytes.ofString s)
  | .object o => c.encodeObject o
  | .bytes b => .ok b

/-- The bytes to store for a value under a key, where `select` chooses the compressor. -/
def encodeWith (c : PayloadCodec) (select : String → Nat → Option CompressorId) (key : String)
    (v : Value) : Except ProtocolError Bytes :=
  match c.plain v with
  | .error e => .error e
  | .ok b =>
    match select key b.length with
    | none => .ok b
    | some id =>
      match c.compressors.compress id b with
      | .ok framed => .ok framed
      | .error e => .error (.compression e)

/-- The bytes to store for a value under a key. -/
def encode (c : PayloadCodec) (key : String) (v : Value) : Except ProtocolError Bytes :=
  c.encodeWith c.strategy.select key v

/-- The value of bytes that are no frame. An object that cannot be read stays bytes. -/
def interpret (c : PayloadCodec) (b : Bytes) : Value :=
  if ObjectCodec.magic.isPrefixOf b then
    match c.objects.decode b with
    | .ok (.string s) => .text s
    | .ok o => .object o
    | .error _ => .bytes b
  else
    match Utf8.decode? b with
    | some s => .text s
    | none => .bytes b

/-- The value of stored bytes; no bytes are no value. -/
def decode (c : PayloadCodec) (b : Bytes) : Except ProtocolError (Option Value) :=
  if b = [] then .ok none
  else
    match c.compressors.decodePayload b with
    | .error e => .error (.compression e)
    | .ok b => .ok (some (c.interpret b))

end PayloadCodec

end TagStore
