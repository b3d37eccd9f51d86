import Mathlib.Data.List.Forall2
import TagStore.Wire.Field
import TagStore.Wire.Opcode

/-!
# A master node

The node that a client talks to, as far as it is asked: a map from keys to values, versions and
tags. A node keeps fields as it was sent them and never looks into them, apart from cutting tags at
their separators. Its entries are in the order of the bytes of their keys, and every value that is
stored gets the next version.

A request is answered by one line, or by a line for each entry that is asked for and a closing one.
-/

namespace TagStore

open Wire

/-- What a node keeps under a key. -/
structure Master.Stored where
  value : Bytes
  version : UInt64
  tags : List Bytes

/-- A master node: its entries by their keys, and the last version that it gave. -/
structure Master where
  store : Std.TreeMap Bytes Master.Stored
  version : UInt64

namespace Master

/-- A node that keeps nothing. -/
def empty : Master := ⟨∅, 0⟩

/-- The greatest size of a value's field. -/
def maxValueSize : Nat := 2560000

/-- What a node says of itself. -/
def banner : String := "VERSION okuyama-0.9.6"

/-! ## Lines -/

/-- The line of fields. -/
def line (fields : List Bytes) : Bytes := joinWith fieldSeparator fields ++ [lineEnd]

/-- The line that reports success, with what the operation brings. -/
def done (op : Opcode) (fields : List Bytes) : Bytes :=
  line (digits op.replyCode :: statusOk :: fields)

/-- The line that reports failure, with a complaint. -/
def failed (op : Opcode) (text : String) : Bytes :=
  line [digits op.replyCode, statusFailed, Bytes.ofString text]

/-- The line about an entry, if there is one. -/
def found (op : Opcode) (fields : Stored → List Bytes) : Option Stored → Bytes
  | some e => done op (fields e)
  | none => failed op ""

/-- The line that closes several. -/
def closing : Bytes := line [endMarker]

/-! ## Entries -/

/-- The tags that a field carries. -/
def tagsOf (field : Bytes) : List Bytes :=
  if field = absent then [] else field.splitOn listSeparator

/-- Keeps a value under a key. -/
def put (m : Master) (key tags value : Bytes) : Master where
  store := m.store.insert key ⟨value, m.version + 1, tagsOf tags⟩
  version := m.version + 1

/-- Forgets a key. -/
def drop (m : Master) (key : Bytes) : Master := { m with store := m.store.erase key }

/-- The entries that carry a tag. -/
def tagged (m : Master) (tag : Bytes) : List (Bytes × Stored) :=
  m.store.toList.filter fun e => e.2.tags.contains tag

/-! ## Requests -/

/-- Stores a value, but adds none under a key that is taken. -/
def write (m : Master) (op : Opcode) (key tags value : Bytes) : Bytes × Master :=
  if maxValueSize < value.length then (failed op "NG:Max Data Size Over", m)
  else if op = .add ∧ key ∈ m.store then (failed op "NG:Data has already created", m)
  else (done op [Bytes.ofString "OK"], m.put key tags value)

/-- Stores a value in place of one of a version. -/
def replace (m : Master) (key tags value expected : Bytes) : Bytes × Master :=
  if (m.store[key]?).any fun e => digits e.version.toNat = expected then
    (done .setVersioned [Bytes.ofString "OK"], m.put key tags value)
  else (failed .setVersioned "NG:Data has already been updated", m)

/-- The keys of the entries that carry a tag. -/
def keysOf (m : Master) (tag : Bytes) : Bytes :=
  match m.tagged tag with
  | [] => failed .getTagKeys ""
  | es => done .getTagKeys [joinWith listSeparator (es.map (·.1))]

/-- The entries under several keys. -/
def valuesOf (m : Master) (keys : List Bytes) : Bytes :=
  (keys.map fun key => found .getMulti (fun e => [e.value]) m.store[key]?).flatten ++ closing

/-- The entries that carry a tag, with their keys. -/
def pairsOf (m : Master) (tag : Bytes) : Bytes :=
  ((m.tagged tag).map fun e => done .getPairsByTag [e.1, e.2.value]).flatten ++ closing

/-- The operation that a field asks for. -/
def asked? (field : Bytes) : Option Opcode := Opcode.all.find? fun op => digits op.code = field

/-- Does what is asked for with the given arguments; those that are missing are empty. -/
def perform (m : Master) (op : Opcode) (args : List Bytes) : Bytes × Master :=
  let arg (i : Nat) : Bytes := (args[i]?).getD []
  match op with
  | .init => (done .init [digits maxValueSize], m)
  | .masterNodeVersion =>
    (line [digits Opcode.masterNodeVersion.replyCode, Bytes.ofString banner], m)
  | .set => m.write .set (arg 0) (arg 1) (arg 3)
  | .add => m.write .add (arg 0) (arg 1) (arg 3)
  | .setVersioned => m.replace (arg 0) (arg 1) (arg 3) (arg 4)
  | .get => (found .get (fun e => [e.value]) m.store[arg 0]?, m)
  | .getVersioned =>
    (found .getVersioned (fun e => [e.value, digits e.version.toNat]) m.store[arg 0]?, m)
  | .remove => (found .remove (fun e => [e.value]) m.store[arg 0]?, m.drop (arg 0))
  | .getTagKeys => (m.keysOf (arg 0), m)
  | .getMulti => (m.valuesOf args, m)
  | .getPairsByTag => (m.pairsOf (arg 0), m)

/-- Answers a request of the given fields, of which the first says what is asked for. -/
def respond (m : Master) (fields : List Bytes) : Bytes × Master :=
  let asked := fields.headD []
  match asked? asked with
  | some op => m.perform op fields.tail
  | none => (line [asked, statusFailed, Bytes.ofString "NG:unsupported"], m)

/-- Answers a request, which is given without its line end. -/
def handle (m : Master) (request : Bytes) : Bytes × Master :=
  m.respond (request.splitOn fieldSeparator)

/-- Every operation is known by its number. -/
theorem asked?_digits (op : Opcode) : asked? (digits op.code) = some op := by
  cases op <;> decide

@[simp] theorem respond_digits (m : Master) (op : Opcode) (args : List Bytes) :
    m.respond (digits op.code :: args) = m.perform op args := by
  simp only [respond, List.headD_cons, List.tail_cons, asked?_digits]

end Master

end TagStore
