/-!
# Operation codes

The operations that a node of the store answers, with the number that opens a request and the
number that opens its reply.
-/

namespace TagStore

/-- An operation of the store. -/
inductive Opcode
  | init
  | set
  | get
  | getTagKeys
  | remove
  | add
  | getVersioned
  | setVersioned
  | getMulti
  | getPairsByTag
  | masterNodeVersion
deriving Repr, DecidableEq

namespace Opcode

/-- The number that opens a request. -/
def code : Opcode → Nat
  | init => 0
  | set => 1
  | get => 2
  | getTagKeys => 3
  | remove => 5
  | add => 6
  | getVersioned => 15
  | setVersioned => 16
  | getMulti => 22
  | getPairsByTag => 23
  | masterNodeVersion => 999

/-- The number that opens a reply: that of the request, except that keys of a tag come back
under 4. -/
def replyCode : Opcode → Nat
  | getTagKeys => 4
  | op => op.code

/-- The name of an operation. -/
def name : Opcode → String
  | init => "init"
  | set => "set"
  | get => "get"
  | getTagKeys => "get_tag_keys"
  | remove => "remove"
  | add => "add"
  | getVersioned => "get_versioned"
  | setVersioned => "set_versioned"
  | getMulti => "get_multi"
  | getPairsByTag => "get_pairs_by_tag"
  | masterNodeVersion => "master_node_version"

/-- The name of an operation and its number. -/
def text (op : Opcode) : String := s!"{op.name}({op.code})"

/-- All operations. -/
def all : List Opcode :=
  [init, set, get, getTagKeys, remove, add, getVersioned, setVersioned, getMulti, getPairsByTag,
   masterNodeVersion]

/-- The operation of a number. -/
def ofCode? (n : Nat) : Option Opcode := all.find? (·.code == n)

/-- Every operation is found under its number, so no two share one. -/
theorem ofCode?_code (op : Opcode) : ofCode? op.code = some op := by
  cases op <;> decide

end Opcode

end TagStore
