import Mathlib.Logic.Function.Basic
import TagStore.Proofs.Client.Operation
import TagStore.Proofs.Node.Master

/-!
# What the operations mean

What a store does for those who use it, told without requests and replies: a catalog says what is
under each key (`Catalog.item?`), an operation changes it (`Catalog.after`), and what the operation
gives is read off the catalog before it (`Catalog.Answers`). Where several keys come back, they are
in the order of the bytes that they are written with.

Operations are asked with keys, tags and versions that a client can send, and with texts that a node
takes (`Operation.Valid`).
-/

namespace TagStore

open Wire

/-- What is under a key. -/
structure Item where
  text : String
  version : UInt64
  tags : List String

/-- What is under each key, and the last version that was given. -/
structure Catalog where
  item? : String → Option Item
  version : UInt64

namespace Catalog

/-- Nothing is under any key. -/
def empty : Catalog := ⟨fun _ => none, 0⟩

/-- Puts a text under a key, with the next version. -/
def put (c : Catalog) (key text : String) (tags : List String) : Catalog where
  item? := Function.update c.item? key (some ⟨text, c.version + 1, tags⟩)
  version := c.version + 1

/-- Takes a key away. -/
def drop (c : Catalog) (key : String) : Catalog :=
  { c with item? := Function.update c.item? key none }

/-- Whether a token is the version of what is under a key. -/
def isCurrent (c : Catalog) (key token : String) : Bool :=
  (c.item? key).any fun i => toString i.version = token

/-- The text under a key. -/
def value? (c : Catalog) (key : String) : Option Value := (c.item? key).map fun i => .text i.text

/-- Whether keys are those that carry a tag, each once and in the order of their bytes. -/
def Lists (c : Catalog) (e : Encoding) (tag : String) (keys : List String) : Prop :=
  keys.Pairwise (fun a b => compare (e.encode a) (e.encode b) = .lt) ∧
    ∀ key, key ∈ keys ↔ ∃ i, c.item? key = some i ∧ tag ∈ i.tags

/-- There is one such list. -/
theorem Lists.unique {c : Catalog} {e : Encoding} {tag : String} {keys keys' : List String}
    (h : c.Lists e tag keys) (h' : c.Lists e tag keys') : keys = keys' := by
  have hasymm : ∀ a b : Bytes, compare a b = .lt → ¬compare b a = .lt :=
    fun a b hab => Std.OrientedCmp.not_lt_of_lt hab
  have hnodup : ∀ {ks : List String}, c.Lists e tag ks → ks.Nodup := fun h =>
    h.1.imp fun {a b} hlt (heq : a = b) => hasymm _ _ hlt (heq ▸ hlt)
  have hperm : keys.Perm keys' :=
    (List.perm_ext_iff_of_nodup (hnodup h) (hnodup h')).2 fun key => (h.2 key).trans (h'.2 key).symm
  exact hperm.eq_of_pairwise (fun a b _ _ hab hba => absurd hba (hasymm _ _ hab)) h.1 h'.1

variable {α : Type}

/-- What an operation leaves. -/
def after (c : Catalog) : Operation α → Catalog
  | .set key (some (.text s)) options => c.put key s options.tags
  | .add key (some (.text s)) options =>
    if (c.item? key).isNone then c.put key s options.tags else c
  | .setVersioned key (some (.text s)) token options =>
    if c.isCurrent key token then c.put key s options.tags else c
  | .remove key => c.drop key
  | _ => c

/-- What an operation gives. -/
def Answers (e : Encoding) (c : Catalog) : Operation α → Except ClientError α → Prop
  | .set .., y => y = .ok ()
  | .add key _ _, y => y = .ok (c.item? key).isNone
  | .get key, y => y = .ok (c.value? key)
  | .remove key, y => y = .ok (c.value? key)
  | .getVersioned key, y =>
    y = .ok ((c.item? key).map fun i => ⟨.text i.text, toString i.version⟩)
  | .setVersioned key _ token _, y =>
    y = if c.isCurrent key token then .ok ()
      else .error (.versionConflict Replying.versionConflict)
  | .getMulti keys, y => y = .ok (keys.filterMap c.value?)
  | .getTagKeys tag _, y => ∃ keys, c.Lists e tag keys ∧ y = .ok keys
  | .getPairsByTag tag, y => ∃ keys, c.Lists e tag keys ∧
    y = .ok (keys.filterMap fun key => (c.value? key).map fun value => ⟨key, value⟩)
  | .init, _ | .version, _ => False

/-- There is one answer. -/
theorem Answers.unique {c : Catalog} {e : Encoding} {op : Operation α} {y y' : Except ClientError α}
    (h : c.Answers e op y) (h' : c.Answers e op y') : y = y' := by
  cases op with
  | init | version => exact h.elim
  | getTagKeys | getPairsByTag =>
    obtain ⟨keys, hkeys, rfl⟩ := h
    obtain ⟨keys', hkeys', rfl⟩ := h'
    rw [hkeys.unique hkeys']
  | _ => exact h.trans h'.symm

end Catalog

/-! ## Arguments -/

/-- Whether a text under a key is within limits: what is written for it must not be greater than a
node takes, nor than a reader takes out of a frame. -/
structure Profile.Within (p : Profile) (key s : String) : Prop where
  readable : ∀ form, p.payload.plain (.text s) = .ok form → form.length ≤ Frame.maxSize
  storable : ∀ payload, p.payload.encode key (.text s) = .ok payload →
    (Field.blob payload).bytes.length ≤ Master.maxValueSize

/-- Whether a client sends a write and a node takes it: the key and the tags pass their checks, and
the value is a text within limits. A key that is to be found by a tag must fit into a field of a
reply. -/
structure Profile.Admits (p : Profile) (key : String) (value : Option Value)
    (options : StoreOptions) : Prop where
  checked : p.checkKey key = .ok ()
  tags : ∀ t ∈ options.tags, Profile.checkTag t = .ok ()
  value : ∃ s, value = some (.text s) ∧ p.Within key s
  found : options.tags ≠ [] → (p.keys.encode key).length ≤ maxFieldSize

/-- Whether an operation on entries is asked with arguments that a client sends and a node takes. -/
def Operation.Valid {α : Type} (p : Profile) : Operation α → Prop
  | .set key value options | .add key value options => p.Admits key value options
  | .setVersioned key value token options =>
    Profile.checkVersion token = .ok () ∧ p.Admits key value options
  | .get key | .remove key | .getVersioned key => p.checkKey key = .ok ()
  | .getMulti keys => ∀ key ∈ keys, p.checkKey key = .ok ()
  | .getTagKeys tag _ | .getPairsByTag tag => Profile.checkTag tag = .ok ()
  | .init | .version => False

end TagStore
