import TagStore.Proofs.Cluster.Choice
import Mathlib.Data.List.Nodup
import Mathlib.Data.List.Perm.Subperm

/-!
# Endpoints that were tried

No stamp is later than the count of the choices (`Registry.Sound`), so a choice puts a later one on
its endpoint than any other has. Endpoints that were chosen since some moment and then lost are
offline and have the latest stamps (`Registry.Tried`). As long as there is another, the next choice
is none of them: either another is online, or the one chosen longest ago is another
(`Registry.Tried.next_notMem`).
-/

namespace TagStore

namespace Registry

variable {r r' : Registry} {i : Nat}

/-! ## The endpoint chosen longest ago -/

theorem stampOf_eq (r : Registry) (i : Nat) :
    r.stampOf i = ((r.nodes.map (·.lastTried))[i]?).getD 0 := by
  rw [List.getElem?_map]
  rfl

/-- **No endpoint was chosen longer ago than the stalest.** -/
theorem stalest_spec (h : 0 < r.size) :
    r.stalest < r.size ∧ ∀ i < r.size, r.stampOf r.stalest ≤ r.stampOf i := by
  have hlen : (r.nodes.map (·.lastTried)).length = r.size := List.length_map _
  have hne : r.nodes.map (·.lastTried) ≠ [] := List.ne_nil_of_length_pos (hlen ▸ h)
  have hst (i : Nat) := r.stampOf_eq i
  have hs : r.stalest = (r.nodes.map (·.lastTried)).idxOf
      ((r.nodes.map (·.lastTried)).min?.getD 0) := rfl
  generalize r.nodes.map (·.lastTried) = stamps at hlen hne hst hs
  cases hm : stamps.min? with
  | none => exact absurd (List.min?_eq_none_iff.1 hm) hne
  | some m =>
    obtain ⟨hmem, hle⟩ := List.min?_eq_some_iff.1 hm
    rw [hm, Option.getD_some] at hs
    have hlt : stamps.idxOf m < stamps.length := List.idxOf_lt_length_iff.2 hmem
    refine ⟨by rw [hs, ← hlen]; exact hlt, fun i hi => ?_⟩
    have hi' : i < stamps.length := hlen ▸ hi
    rw [hst, hst, hs, List.getElem?_eq_getElem hlt, List.getElem_idxOf hlt,
      List.getElem?_eq_getElem hi']
    exact hle _ (List.getElem_mem hi')

/-- Of several endpoints chosen as long ago, the stalest is the first. -/
theorem stampOf_stalest_lt {j : Nat} (h : 0 < r.size) (hj : j < r.stalest) :
    r.stampOf r.stalest < r.stampOf j := by
  obtain ⟨hlt, hmin⟩ := stalest_spec h
  refine Nat.lt_of_le_of_ne (hmin j (Nat.lt_trans hj hlt)) fun heq => ?_
  have hlt' : r.stalest < (r.nodes.map (·.lastTried)).length := (List.length_map _).symm ▸ hlt
  have hfound : (r.nodes.map (·.lastTried))[r.stalest] =
      (r.nodes.map (·.lastTried)).min?.getD 0 := List.getElem_idxOf hlt'
  rw [stampOf_eq, stampOf_eq, List.getElem?_eq_getElem hlt',
    List.getElem?_eq_getElem (Nat.lt_trans hj hlt'), Option.getD_some, Option.getD_some,
    hfound] at heq
  exact ne_of_beq_false (List.not_of_lt_findIdx hj) heq.symm

/-! ## Stamps and the count of the choices -/

/-- A registry with endpoints, whose stamps are those of choices made. -/
structure Sound (r : Registry) : Prop where
  size_pos : 0 < r.size
  stampOf_le : ∀ i, r.stampOf i ≤ r.ticks

theorem Sound.of_rotation (hs : r.Sound) (h : r'.rotation = r.rotation) : r'.Sound where
  size_pos := (size_eq_of_rotation h).symm ▸ hs.size_pos
  stampOf_le i := by
    rw [stampOf_eq_of_rotation h, ticks_eq_of_rotation h]
    exact hs.stampOf_le i

/-- What a choice leaves: a stamp of its own on an endpoint. -/
theorem Sound.stampOf_next (hs : r.Sound) :
    r.next.1 < r.size ∧ r.next.2.ticks = r.ticks + 1 ∧
      ∀ i, r.next.2.stampOf i = if r.next.1 = i then r.ticks + 1 else r.stampOf i := by
  have h := r.chosen_next
  generalize r.next = y at h ⊢
  cases h with
  | @turn k hk =>
    have hlt : (r.cursor + k) % r.size < r.size := Nat.mod_lt _ hs.size_pos
    exact ⟨hlt, rfl, stampOf_stamp { r with cursor := r.cursor + 1 + k } hlt⟩
  | stalest =>
    have hlt := (stalest_spec hs.size_pos).1
    exact ⟨hlt, rfl, stampOf_stamp { r with cursor := r.cursor + 1 } hlt⟩

/-- **Every event keeps a registry sound.** -/
theorem Sound.after (hs : r.Sound) (e : Event) : (r.after e).Sound := by
  cases e with
  | choice =>
    obtain ⟨-, ht, hst⟩ := hs.stampOf_next
    refine ⟨(size_next r).symm ▸ hs.size_pos, fun i => ?_⟩
    change r.next.2.stampOf i ≤ r.next.2.ticks
    have := hs.stampOf_le i
    rw [hst, ht]
    split <;> omega
  | lost | found | probed => exact hs.of_rotation (rotation_after (by simp))

theorem sound_ofEndpoints {addresses : List String} {health : HealthSettings}
    (h : ofEndpoints addresses health = .ok r) : r.Sound := by
  obtain ⟨hne, hpos, es, hes, rfl⟩ := ofEndpoints_eq_ok h
  refine ⟨?_, fun i => ?_⟩
  · rw [size, starting, List.length_map, length_of_readAll hes]
    exact List.length_pos_of_ne_nil hne
  · rw [stampOf, starting, List.getElem?_map]
    cases es[i]? <;> exact Nat.le_refl 0

/-! ## Losing an endpoint -/

theorem isOffline_modify (f : Node → Node) (i j : Nat) (ns : List Node) :
    (((ns.modify i f)[j]?).map (·.offline)).getD false =
      ((ns[j]?).map fun n => if i = j then (f n).offline else n.offline).getD false := by
  rw [List.getElem?_modify]
  cases ns[j]? with
  | none => rfl
  | some n => by_cases hij : i = j <;> simp [hij]

/-- An endpoint that is lost is offline, and so are those that were. -/
theorem isOffline_markOffline (r : Registry) (now : Nat) {i : Nat} (h : i < r.size) (j : Nat) :
    (r.markOffline true now i).2.isOffline j = (decide (i = j) || r.isOffline j) := by
  unfold markOffline
  by_cases hi : r.isOffline i = true
  · by_cases hij : i = j
    · subst hij
      simp [hi]
    · simp [hi, hij]
  · rw [if_neg (by simp [hi, h])]
    rw [isOffline, isOffline_modify, isOffline]
    by_cases hij : i = j
    · subst hij
      simp [List.getElem?_eq_getElem (show i < r.nodes.length from h)]
    · simp [hij]

/-- An endpoint that is put back into use is online. -/
theorem isOffline_markOnline (r : Registry) (i j : Nat) :
    (r.markOnline i).isOffline j = (!decide (i = j) && r.isOffline j) := by
  simp only [markOnline]
  rw [isOffline, isOffline_modify, isOffline]
  by_cases hij : i = j
  · cases r.nodes[j]? <;> simp [hij]
  · simp [hij]

/-! ## Endpoints tried in vain -/

/-- Fewer endpoints than there are leave one out. -/
theorem exists_notMem {n : Nat} {places : List Nat} (h : places.length < n) :
    ∃ i < n, i ∉ places := by
  by_contra hall
  have hsub : List.range n ⊆ places := fun i hi => by
    by_contra hn
    exact hall ⟨i, List.mem_range.1 hi, hn⟩
  have hle := (List.subperm_of_subset List.nodup_range hsub).length_le
  rw [List.length_range] at hle
  omega

/-- As many different endpoints as there are, are all of them. -/
theorem perm_range_of_nodup {n : Nat} {places : List Nat} (hnodup : places.Nodup)
    (hlt : ∀ i ∈ places, i < n) (hlen : n ≤ places.length) : places.Perm (List.range n) := by
  have hsub : places ⊆ List.range n := fun i hi => List.mem_range.2 (hlt i hi)
  exact (List.subperm_of_subset hnodup hsub).perm_of_length_le (by simpa using hlen)

/-- What is known of a registry when some endpoints were chosen since its count of the choices was
`start`, and all of them were lost. -/
structure Tried (start : Nat) (tried : List Nat) (r : Registry) : Prop where
  sound : r.Sound
  nodup : tried.Nodup
  lt_size : ∀ i ∈ tried, i < r.size
  offline : ∀ i ∈ tried, r.isOffline i = true
  recent : ∀ i ∈ tried, start < r.stampOf i
  old : ∀ i < r.size, i ∉ tried → r.stampOf i ≤ start
  start_le : start ≤ r.ticks

namespace Tried

variable {start : Nat} {tried : List Nat}

theorem nil (hs : r.Sound) : Tried r.ticks [] r where
  sound := hs
  nodup := List.nodup_nil
  lt_size := by simp
  offline := by simp
  recent := by simp
  old i _ _ := hs.stampOf_le i
  start_le := Nat.le_refl _

theorem of_rotation (ht : Tried start tried r) (h : r'.rotation = r.rotation)
    (hoff : ∀ i ∈ tried, r'.isOffline i = true) : Tried start tried r' where
  sound := ht.sound.of_rotation h
  nodup := ht.nodup
  lt_size i hi := (size_eq_of_rotation h).symm ▸ ht.lt_size i hi
  offline := hoff
  recent i hi := (stampOf_eq_of_rotation h i).symm ▸ ht.recent i hi
  old i hi hn := by
    rw [stampOf_eq_of_rotation h]
    exact ht.old i (size_eq_of_rotation h ▸ hi) hn
  start_le := (ticks_eq_of_rotation h).symm ▸ ht.start_le

/-- As many endpoints as there are, all tried, are all of them. -/
theorem perm_range (ht : Tried start tried r) (h : r.size ≤ tried.length) :
    tried.Perm (List.range r.size) := perm_range_of_nodup ht.nodup ht.lt_size h

/-- **While there is an endpoint that was not tried, the next choice is one.** -/
theorem next_notMem (ht : Tried start tried r) (hlt : tried.length < r.size) :
    r.next.1 ∉ tried := by
  intro hmem
  have h := r.chosen_next
  generalize r.next = y at h hmem
  cases h with
  | turn _ hon _ =>
    rw [ht.offline _ hmem] at hon
    cases hon
  | stalest =>
    obtain ⟨i, hi, hn⟩ := exists_notMem hlt
    have hrecent : start < r.stampOf r.stalest := ht.recent _ hmem
    have hle := (stalest_spec ht.sound.size_pos).2 i hi
    have hold := ht.old i hi hn
    omega

/-- What is chosen and then lost is one more endpoint that was tried. -/
theorem lost (ht : Tried start tried r) (hlt : tried.length < r.size) (now : Nat) :
    Tried start (tried ++ [r.next.1]) (r.next.2.markOffline true now r.next.1).2 := by
  obtain ⟨hi, hticks, hst⟩ := ht.sound.stampOf_next
  have hi' : r.next.1 < r.next.2.size := (size_next r).symm ▸ hi
  have hrot := rotation_markOffline r.next.2 true now r.next.1
  have hsize : (r.next.2.markOffline true now r.next.1).2.size = r.size :=
    (size_eq_of_rotation hrot).trans (size_next r)
  refine ⟨(ht.sound.after .choice).after (.lost true now r.next.1), ?_, ?_, ?_, ?_, ?_, ?_⟩
  · simpa using ht.nodup.concat (ht.next_notMem hlt)
  · intro i him
    rw [hsize]
    rcases List.mem_append.1 him with him | him
    · exact ht.lt_size i him
    · exact List.mem_singleton.1 him ▸ hi
  · intro i him
    rw [isOffline_markOffline _ now hi', isOffline_next]
    rcases List.mem_append.1 him with him | him
    · simp [ht.offline i him]
    · simp [List.mem_singleton.1 him]
  · intro i him
    rw [stampOf_eq_of_rotation hrot, hst]
    have hle := ht.start_le
    rcases List.mem_append.1 him with him | him
    · have := ht.recent i him
      split <;> omega
    · rw [if_pos (List.mem_singleton.1 him).symm]
      omega
  · intro i hi hn
    rw [List.mem_append, List.mem_singleton, not_or] at hn
    rw [stampOf_eq_of_rotation hrot, hst, if_neg (Ne.symm hn.2)]
    exact ht.old i (hsize ▸ hi) hn.1
  · rw [ticks_eq_of_rotation hrot, hticks]
    exact Nat.le_succ_of_le ht.start_le

end Tried

end Registry

end TagStore
