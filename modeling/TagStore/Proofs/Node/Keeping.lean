import Mathlib.Data.List.Forall2
import TagStore.Proofs.Client.RequestLine
import TagStore.Proofs.Node.Catalog

/-!
# What a node keeps

A node keeps a catalog (`Master.Keeps`) if it has an entry under the bytes of each key that the
catalog knows, and no other, and if each entry shows its item: its value reads as the text, its tags
are written as the item's. Keys are told by their bytes, so storing and forgetting do for the node
what they do for the catalog (`Keeps.put`, `Keeps.drop`), and the entries that carry a tag are those
of the keys that the catalog lists (`Keeps.exists_listed`).
-/

namespace TagStore

open Wire

namespace Wire.Encoding

@[simp] theorem compare_encode {e : Encoding} {s t : String} :
    compare (e.encode s) (e.encode t) = .eq ↔ s = t :=
  Std.LawfulEqCmp.compare_eq_iff_eq.trans encode_inj

end Wire.Encoding

/-- What each member of a list is related to. -/
theorem exists_forall₂ {α β : Type} {R : α → β → Prop} {as : List α} (h : ∀ a ∈ as, ∃ b, R a b) :
    ∃ bs, List.Forall₂ R as bs := by
  induction as with
  | nil => exact ⟨[], .nil⟩
  | cons a as ih =>
    obtain ⟨⟨b, hb⟩, has⟩ := List.forall_mem_cons.1 h
    obtain ⟨bs, hbs⟩ := ih has
    exact ⟨b :: bs, .cons hb hbs⟩

namespace Master

/-- Whether an entry shows what is under a key. -/
structure Shows (p : Profile) (key : String) (e : Stored) (i : Item) : Prop where
  version : e.version = i.version
  tags : e.tags = i.tags.map Encoding.base64.encode
  value : Wire.value p.payload e.value = .ok (some (.text i.text))
  contained : Contained e.value
  short : e.value.length ≤ maxValueSize
  found : i.tags ≠ [] → (p.keys.encode key).length ≤ maxFieldSize

/-- Whether a node keeps what a catalog says. -/
structure Keeps (p : Profile) (m : Master) (c : Catalog) : Prop where
  version : m.version = c.version
  entry : ∀ key, Option.Rel (Shows p key) m.store[p.keys.encode key]? (c.item? key)
  key : ∀ f ∈ m.store, ∃ key, f = p.keys.encode key ∧ p.checkKey key = .ok ()

variable {p : Profile} {m : Master} {c : Catalog} {key : String}

/-- Storing a value puts its text under the key. -/
theorem Keeps.put (h : m.Keeps p c) (hkey : p.checkKey key = .ok ()) {tags value : Bytes}
    {i : Item} (hi : i.version = c.version + 1)
    (hshows : Shows p key ⟨value, m.version + 1, tagsOf tags⟩ i) :
    (m.put (p.keys.encode key) tags value).Keeps p (c.put key i.text i.tags) where
  version := congrArg (· + 1) h.version
  entry key' := by
    simp only [Master.put, Catalog.put, Std.TreeMap.getElem?_insert, Encoding.compare_encode,
      Function.update_apply, eq_comm (a := key')]
    split
    · rename_i heq
      exact .some (heq ▸ hi ▸ hshows)
    · exact h.entry key'
  key f hf := by
    rcases Std.TreeMap.mem_insert.1 hf with heq | hf
    · exact ⟨key, (Std.LawfulEqCmp.compare_eq_iff_eq.1 heq).symm, hkey⟩
    · exact h.key f hf

/-- Forgetting a key takes it away. -/
theorem Keeps.drop (h : m.Keeps p c) (key : String) :
    (m.drop (p.keys.encode key)).Keeps p (c.drop key) where
  version := h.version
  entry key' := by
    simp only [Master.drop, Catalog.drop, Std.TreeMap.getElem?_erase, Encoding.compare_encode,
      Function.update_apply, eq_comm (a := key')]
    split
    · exact .none
    · exact h.entry key'
  key f hf := h.key f (Std.TreeMap.mem_of_mem_erase hf)

/-- What the node has under the bytes of a key. -/
theorem Keeps.cases_entry (h : m.Keeps p c) (key : String) :
    m.store[p.keys.encode key]? = none ∧ c.item? key = none ∨
      ∃ e i, m.store[p.keys.encode key]? = some e ∧ c.item? key = some i ∧ Shows p key e i := by
  have hrel := h.entry key
  generalize m.store[p.keys.encode key]? = x at hrel ⊢
  generalize c.item? key = y at hrel ⊢
  cases hrel with
  | none => exact .inl ⟨rfl, rfl⟩
  | some hs => exact .inr ⟨_, _, rfl, rfl, hs⟩

/-! ## Tags -/

theorem mem_tagged {f tag : Bytes} {e : Stored} :
    (f, e) ∈ m.tagged tag ↔ m.store[f]? = some e ∧ tag ∈ e.tags := by
  rw [tagged, List.mem_filter, Std.TreeMap.mem_toList_iff_getElem?_eq_some, List.contains_iff_mem]

/-- Whether an entry found by a tag is that of a key. -/
structure Listed (p : Profile) (c : Catalog) (tag : String) (e : Bytes × Stored) (key : String) :
    Prop where
  bytes : e.1 = p.keys.encode key
  checked : p.checkKey key = .ok ()
  item : ∃ i, c.item? key = some i ∧ tag ∈ i.tags ∧ Shows p key e.2 i

/-- A key that is found by a tag is read back as an item of a list. -/
theorem Listed.item_encode {tag : String} {e : Bytes × Stored} (h : Listed p c tag e key) :
    Wire.item p.keys (p.keys.encode key) = .ok (some key) ∧
      (∀ y ∈ p.keys.encode key, isDelimiter y = false) ∧
      (p.keys.encode key).length ≤ maxFieldSize := by
  obtain ⟨i, -, htag, hshows⟩ := h.item
  exact ⟨Wire.item_encode (Profile.checkKey_eq_ok h.checked).1
    (Profile.encode_ne_absent h.checked), Profile.isDelimiter_encode h.checked,
      hshows.found (List.ne_nil_of_mem htag)⟩

theorem Shows.mem_tags {e : Stored} {i : Item} (h : Shows p key e i) (tag : String) :
    Encoding.base64.encode tag ∈ e.tags ↔ tag ∈ i.tags := by
  rw [h.tags, List.mem_map]
  simp only [Encoding.encode_inj, exists_eq_right]

theorem Keeps.listed_of_mem (h : m.Keeps p c) (tag : String) {e : Bytes × Stored}
    (he : e ∈ m.tagged (Encoding.base64.encode tag)) : ∃ key, Listed p c tag e key := by
  obtain ⟨f, e⟩ := e
  obtain ⟨hstore, htag⟩ := mem_tagged.1 he
  obtain ⟨key, rfl, hchecked⟩ := h.key f (by
    rw [← Std.TreeMap.isSome_getElem?_iff_mem, hstore]
    rfl)
  rcases h.cases_entry key with ⟨hnone, -⟩ | ⟨e', i, he', hi, hs⟩
  · rw [hstore] at hnone
    cases hnone
  · rw [hstore] at he'
    obtain rfl := Option.some.inj he'
    exact ⟨key, rfl, hchecked, i, hi, (hs.mem_tags tag).1 htag, hs⟩

theorem map_fst_of_listed {es : List (Bytes × Stored)} {keys : List String} {tag : String}
    (h : List.Forall₂ (Listed p c tag) es keys) : es.map Prod.fst = keys.map p.keys.encode := by
  rw [← List.forall₂_eq_eq_eq, List.forall₂_map_left_iff, List.forall₂_map_right_iff]
  exact h.imp fun _ _ hl => hl.bytes

theorem exists_of_listed {es : List (Bytes × Stored)} {keys : List String} {tag : String}
    (h : List.Forall₂ (Listed p c tag) es keys) : ∀ key ∈ keys, ∃ e, Listed p c tag e key := by
  induction h with
  | nil => simp
  | cons he _ ih => exact List.forall_mem_cons.2 ⟨⟨_, he⟩, ih⟩

theorem Keeps.tagged_iff (h : m.Keeps p c) (key tag : String) :
    (∃ e, (p.keys.encode key, e) ∈ m.tagged (Encoding.base64.encode tag)) ↔
      ∃ i, c.item? key = some i ∧ tag ∈ i.tags := by
  simp only [mem_tagged]
  rcases h.cases_entry key with ⟨he, hi⟩ | ⟨e, i, he, hi, hs⟩
  · simp [he, hi]
  · simp only [he, hi, Option.some.injEq, exists_eq_left', hs.mem_tags]

/-- **The entries that carry a tag are those of the keys that the catalog lists.** -/
theorem Keeps.exists_listed (h : m.Keeps p c) (tag : String) :
    ∃ keys, c.Lists p.keys tag keys ∧
      List.Forall₂ (Listed p c tag) (m.tagged (Encoding.base64.encode tag)) keys := by
  obtain ⟨keys, hkeys⟩ := exists_forall₂ fun e he => h.listed_of_mem tag he
  have hbytes := map_fst_of_listed hkeys
  refine ⟨keys, ⟨?_, fun key => ?_⟩, hkeys⟩
  · have hord : ((m.tagged (Encoding.base64.encode tag)).map Prod.fst).Pairwise
        fun a b => compare a b = .lt :=
      List.pairwise_map.2 (Std.TreeMap.ordered_keys_toList.filter _)
    rw [hbytes, List.pairwise_map] at hord
    exact hord
  · rw [← h.tagged_iff, ← List.mem_map_of_injective fun _ _ => Encoding.encode_inj.1, ← hbytes,
      List.mem_map]
    simp only [Prod.exists, exists_and_right, exists_eq_right]

end Master

end TagStore
