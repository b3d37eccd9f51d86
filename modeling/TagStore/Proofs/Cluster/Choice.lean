import TagStore.Cluster.Registry
import TagStore.Proofs.Except
import Mathlib.Data.List.Basic

/-!
# What a choice does

A choice looks at the endpoints in turn, from the place that the cursor counts to, and takes the
first that is online; while none is, it takes the one chosen longest ago (`Registry.chosen_next`).
Whichever it takes, it puts a later stamp on it than on any other.

What else happens to a registry (`Registry.Event`), an endpoint lost or found or the step of a
probe, changes who is online and leaves the cursor, the stamps and the order of the endpoints as
they are (`Registry.rotation_after`). At the start all are online and none has a stamp
(`Registry.ofEndpoints_eq_ok`).
-/

namespace TagStore

namespace Registry

variable {r r' : Registry} {i j : Nat}

/-! ## Who is online -/

/-- The places of the endpoints that are not offline. -/
def online (r : Registry) : List Nat := (List.range r.size).filter fun i => !r.isOffline i

@[simp] theorem mem_online : i ∈ r.online ↔ i < r.size ∧ r.isOffline i = false := by
  simp [online]

theorem nodup_online (r : Registry) : r.online.Nodup := List.nodup_range.filter _

theorem online_eq_nil : r.online = [] ↔ ∀ i < r.size, r.isOffline i = true := by
  simp [online, List.filter_eq_nil_iff]

/-! ## Turns -/

/-- Every place is met within one round, wherever the search starts. -/
theorem exists_turn (start : Nat) {i n : Nat} (h : i < n) : ∃ k < n, (start + k) % n = i := by
  refine ⟨(i + n - start % n) % n, Nat.mod_lt _ (by omega), ?_⟩
  have hs : start % n < n := Nat.mod_lt _ (by omega)
  rw [Nat.add_mod, Nat.mod_mod, ← Nat.add_mod, ← Nat.mod_add_mod,
    Nat.add_sub_cancel' (show start % n ≤ i + n by omega), Nat.add_mod_right, Nat.mod_eq_of_lt h]

/-- What a choice comes to. -/
inductive Chosen (r : Registry) : Nat × Registry → Prop
  /-- The first endpoint that is online is taken, counted from the cursor on. -/
  | turn {k : Nat} :
    k < r.size → r.isOffline ((r.cursor + k) % r.size) = false →
    (∀ m < k, r.isOffline ((r.cursor + m) % r.size) = true) →
    Chosen r ((r.cursor + k) % r.size,
      stamp { r with cursor := r.cursor + 1 + k } ((r.cursor + k) % r.size))
  /-- None is online, and the one chosen longest ago is taken. -/
  | stalest :
    r.online = [] → Chosen r (r.stalest, stamp { r with cursor := r.cursor + 1 } r.stalest)

/-- **A choice takes the next endpoint that is online, or else the one chosen longest ago.** -/
theorem chosen_next (r : Registry) : Chosen r r.next := by
  unfold next
  split
  · rename_i k hk
    obtain ⟨hon, hlt, hoff⟩ := List.find?_range_eq_some.1 hk
    refine .turn (List.mem_range.1 hlt) (by simpa using hon) fun m hm => ?_
    simpa using hoff m hm
  · rename_i hk
    refine .stalest (online_eq_nil.2 fun i hi => ?_)
    obtain ⟨k, hlt, rfl⟩ := exists_turn r.cursor hi
    simpa using List.find?_eq_none.1 hk k (List.mem_range.2 hlt)

/-! ## The rotation -/

/-- What a choice goes by beside who is online. -/
structure Rotation where
  /-- When each endpoint was last chosen. -/
  stamps : List Nat
  cursor : Nat
  ticks : Nat

/-- The stamps, the cursor and the count of the choices. -/
def rotation (r : Registry) : Rotation := ⟨r.nodes.map (·.lastTried), r.cursor, r.ticks⟩

/-- When the endpoint at a place was last chosen. -/
def stampOf (r : Registry) (i : Nat) : Nat := ((r.nodes[i]?).map (·.lastTried)).getD 0

theorem size_eq_of_rotation (h : r'.rotation = r.rotation) : r'.size = r.size := by
  have := congrArg (·.stamps.length) h
  simpa [rotation, size] using this

theorem cursor_eq_of_rotation (h : r'.rotation = r.rotation) : r'.cursor = r.cursor :=
  congrArg Rotation.cursor h

theorem ticks_eq_of_rotation (h : r'.rotation = r.rotation) : r'.ticks = r.ticks :=
  congrArg Rotation.ticks h

theorem stampOf_eq_of_rotation (h : r'.rotation = r.rotation) (i : Nat) :
    r'.stampOf i = r.stampOf i := by
  have := congrArg (·.stamps[i]?.getD 0) h
  simpa [rotation, stampOf] using this

theorem stamps_modify {f : Node → Node} (hf : ∀ n, (f n).lastTried = n.lastTried) (i : Nat)
    (ns : List Node) : (ns.modify i f).map (·.lastTried) = ns.map (·.lastTried) := by
  apply List.ext_getElem?
  intro j
  rw [List.getElem?_map, List.getElem?_modify, List.getElem?_map]
  cases ns[j]? with
  | none => rfl
  | some n =>
    change some (if i = j then f n else n).lastTried = some n.lastTried
    split
    · rw [hf]
    · rfl

theorem rotation_markOffline (r : Registry) (canProbe : Bool) (now i : Nat) :
    (r.markOffline canProbe now i).2.rotation = r.rotation := by
  unfold markOffline
  split
  · rfl
  · simp [rotation, stamps_modify]

theorem rotation_markOnline (r : Registry) (i : Nat) :
    (r.markOnline i).rotation = r.rotation := by
  simp [markOnline, rotation, stamps_modify]

theorem rotation_finishProbe (r : Registry) (p : Probe) :
    (r.finishProbe p).rotation = r.rotation := by
  unfold finishProbe
  simp only
  split
  · simp [rotation, stamps_modify]
  · rfl

theorem rotation_runProbe (reach : String → Reach) (limit : Nat) (r : Registry) (p : Probe) :
    (runProbe reach limit r p).rotation = r.rotation := by
  unfold runProbe
  split
  · rfl
  · exact rotation_finishProbe r p

/-! ## Stamping -/

@[simp] theorem size_stamp (r : Registry) (i : Nat) : (r.stamp i).size = r.size := by
  simp [stamp, size]

@[simp] theorem isOffline_stamp (r : Registry) (i j : Nat) :
    (r.stamp i).isOffline j = r.isOffline j := by
  simp only [isOffline, stamp, List.getElem?_modify]
  cases r.nodes[j]? with
  | none => rfl
  | some n =>
    simp only [Option.map_eq_map, Option.map_some, Option.getD_some]
    split <;> rfl

theorem stampOf_stamp (r : Registry) (h : i < r.size) (j : Nat) :
    (r.stamp i).stampOf j = if i = j then r.ticks + 1 else r.stampOf j := by
  simp only [stampOf, stamp, List.getElem?_modify]
  by_cases hij : i = j
  · subst hij
    simp [List.getElem?_eq_getElem (show i < r.nodes.length from h)]
  · simp [hij]

/-! ## Events -/

/-- What happens to a registry: a choice; the loss of an endpoint, or its return by other ways than
a probe; what is due of a probe, whichever it is. -/
inductive Event
  | choice
  | lost (canProbe : Bool) (now i : Nat)
  | found (i : Nat)
  | probed (reach : String → Reach) (limit : Nat) (p : Probe)

/-- The registry after an event. -/
def after (r : Registry) : Event → Registry
  | .choice => r.next.2
  | .lost canProbe now i => (r.markOffline canProbe now i).2
  | .found i => r.markOnline i
  | .probed reach limit p => runProbe reach limit r p

/-- **Only choices move the rotation.** -/
theorem rotation_after {e : Event} (h : e ≠ .choice) : (r.after e).rotation = r.rotation := by
  cases e with
  | choice => exact absurd rfl h
  | lost canProbe now i => exact rotation_markOffline r canProbe now i
  | found i => exact rotation_markOnline r i
  | probed reach limit p => exact rotation_runProbe reach limit r p

@[simp] theorem size_next (r : Registry) : r.next.2.size = r.size := by
  have h := r.chosen_next
  generalize r.next = y at h ⊢
  cases h with
  | turn | stalest => exact size_stamp _ _

@[simp] theorem isOffline_next (r : Registry) (i : Nat) :
    r.next.2.isOffline i = r.isOffline i := by
  have h := r.chosen_next
  generalize r.next = y at h ⊢
  cases h with
  | turn | stalest => exact isOffline_stamp _ _ _

/-! ## How a registry starts -/

/-- A registry of endpoints of which none was chosen or lost yet. -/
def starting (es : List Endpoint) (schedule : ProbeSchedule) : Registry where
  nodes := es.map fun e => ⟨e, false, 0, none⟩
  cursor := 0
  ticks := 0
  schedule := schedule
  probes := []
  nextProbe := 0

theorem ofEndpoints_eq_ok {addresses : List String} {health : HealthSettings}
    (h : ofEndpoints addresses health = .ok r) :
    addresses ≠ [] ∧ ∃ (hpos : 0 < health.recheckInterval.nanos) (es : List Endpoint),
      readAll addresses = .ok es ∧ r = starting es ⟨health, hpos⟩ := by
  unfold ofEndpoints at h
  split at h
  · cases h
  rename_i hne
  split at h
  · rename_i hpos
    obtain ⟨es, hes, rfl⟩ := exists_of_map_ok h
    exact ⟨hne, hpos, es, hes, rfl⟩
  · cases h

theorem length_of_readAll {addresses : List String} {es : List Endpoint}
    (h : readAll addresses = .ok es) : es.length = addresses.length := by
  induction addresses generalizing es with
  | nil =>
    cases h
    rfl
  | cons s ss ih =>
    rw [readAll] at h
    split at h
    · cases h
    · obtain ⟨es, hes, rfl⟩ := exists_of_map_ok h
      rw [List.length_cons, List.length_cons, ih hes]

/-! ## Three endpoints -/

theorem recheckInterval_pos : 0 < ({} : HealthSettings).recheckInterval.nanos := by decide

/-- Three endpoints, none of which was chosen yet. -/
def untried : Registry where
  nodes := [⟨⟨"a", 1⟩, false, 0, none⟩, ⟨⟨"b", 2⟩, false, 0, none⟩, ⟨⟨"c", 3⟩, false, 0, none⟩]
  cursor := 0
  ticks := 0
  schedule := ⟨{}, recheckInterval_pos⟩
  probes := []
  nextProbe := 0

theorem ofEndpoints_untried : ofEndpoints ["a:1", "b:2", "c:3"] {} = .ok untried := by rfl

end Registry

end TagStore
