import TagStore.Proofs.Cluster.Staleness
import Mathlib.Data.List.Induction
import Mathlib.Data.List.Nodup

/-!
# Endpoints and their probes

A probe goes on for as long as nobody stops it, and one that was stopped may still be about to do
its last step. So beside the registry stands every probe that was ever started, with where it stands
(`Registry.Probing`), and any of them may take a step at any time, whether its endpoint still holds
it or not. Endpoints are lost and found in between, in any order (`Registry.Incident`).

After every incident an endpoint is offline just as long as it holds a probe, the probe that it
holds is the one started last for it and the only one that runs (`Registry.Probing.Kept`). A probe
that is no longer held has no effect (`Registry.Probing.Kept.finishProbe_eq`), and one that waits to
be trusted has met an endpoint that accepts connections (`Registry.Probing.accepted_of_settling`).
Together these tell what may bring an endpoint back (`Registry.offline_iff_held`). What a pool lets
its probes do is a run of such steps (`Registry.Probing.Kept.runProbes`).
-/

namespace TagStore

/-- Where a probe stands, once the probe of a number has come to stand elsewhere. -/
def Probe.moveIf (id : Nat) (phase : ProbePhase) (q : Probe) : Probe :=
  if q.id = id then { q with phase } else q

@[simp] theorem Probe.id_moveIf (id : Nat) (phase : ProbePhase) (q : Probe) :
    (q.moveIf id phase).id = q.id := by
  unfold Probe.moveIf
  split <;> rfl

@[simp] theorem Probe.node_moveIf (id : Nat) (phase : ProbePhase) (q : Probe) :
    (q.moveIf id phase).node = q.node := by
  unfold Probe.moveIf
  split <;> rfl

namespace Registry

variable {r : Registry} {i j id : Nat} {p q : Probe}

/-! ## The probe that an endpoint holds -/

/-- The number of the probe that the endpoint at a place holds. -/
def held (r : Registry) (i : Nat) : Option Nat := (r.nodes[i]?).bind (·.probe)

theorem held_modify (f : Node → Node) (i j : Nat) (ns : List Node) :
    ((ns.modify i f)[j]?).bind (·.probe) =
      (ns[j]?).bind fun n => if i = j then (f n).probe else n.probe := by
  rw [List.getElem?_modify]
  cases ns[j]? with
  | none => rfl
  | some n => by_cases hij : i = j <;> simp [hij]

@[simp] theorem held_stamp (r : Registry) (i j : Nat) : (r.stamp i).held j = r.held j := by
  simp only [held, stamp, held_modify]
  cases r.nodes[j]? <;> simp

@[simp] theorem held_next (r : Registry) (j : Nat) : r.next.2.held j = r.held j := by
  have h := r.chosen_next
  generalize r.next = y at h ⊢
  cases h with
  | turn | stalest => exact held_stamp _ _ _

@[simp] theorem probes_next (r : Registry) : r.next.2.probes = r.probes := by
  have h := r.chosen_next
  generalize r.next = y at h ⊢
  cases h with
  | turn | stalest => rfl

@[simp] theorem nextProbe_next (r : Registry) : r.next.2.nextProbe = r.nextProbe := by
  have h := r.chosen_next
  generalize r.next = y at h ⊢
  cases h with
  | turn | stalest => rfl

@[simp] theorem schedule_next (r : Registry) : r.next.2.schedule = r.schedule := by
  have h := r.chosen_next
  generalize r.next = y at h ⊢
  cases h with
  | turn | stalest => rfl

@[simp] theorem held_markOnline (r : Registry) (i j : Nat) :
    (r.markOnline i).held j = if i = j then none else r.held j := by
  simp only [held, markOnline, held_modify]
  by_cases hij : i = j
  · cases r.nodes[j]? <;> simp [hij]
  · simp [hij]

theorem probes_markOnline (r : Registry) (i : Nat) :
    (r.markOnline i).probes = r.probes.filter fun p => some p.id ≠ r.held i := rfl

/-- The end of the probe that an endpoint holds puts the endpoint back into use. -/
theorem finishProbe_eq_markOnline (h : r.held p.node = some p.id) :
    r.finishProbe p = r.markOnline p.node := by
  have hp : (r.probes.filter fun q => some q.id ≠ r.held p.node) =
      r.probes.filter (·.id ≠ p.id) := by
    simp only [h, ne_eq, Option.some.injEq]
  refine (if_pos h).trans ?_
  rw [← hp]
  rfl

theorem finishProbe_eq_of_ne (h : r.held p.node ≠ some p.id) :
    r.finishProbe p = { r with probes := r.probes.filter (·.id ≠ p.id) } :=
  if_neg h

/-- What becomes of an endpoint that is reported lost. -/
inductive Lost (r : Registry) (now i : Nat) : Bool × Registry → Prop
  /-- It was online, and now it is offline and holds a new probe. -/
  | started {r' : Registry} :
    r.isOffline i = false → r'.isOffline i = true → r'.held i = some r.nextProbe →
    (∀ j, i ≠ j → r'.isOffline j = r.isOffline j ∧ r'.held j = r.held j) →
    r'.probes = ⟨r.nextProbe, i, .start now⟩ :: r.probes → r'.nextProbe = r.nextProbe + 1 →
    r'.schedule = r.schedule → Lost r now i (true, r')
  /-- It was offline, there is no such endpoint, or no probe can run: nothing changes. -/
  | unchanged : Lost r now i (false, r)

theorem lost_markOffline (r : Registry) (canProbe : Bool) (now i : Nat) :
    Lost r now i (r.markOffline canProbe now i) := by
  unfold markOffline
  split
  · exact .unchanged
  · rename_i h
    simp only [Bool.or_eq_true, decide_eq_true_eq, not_or, Bool.not_eq_true] at h
    obtain ⟨⟨hoff, -⟩, hi⟩ := h
    have hi : i < r.nodes.length := Nat.lt_of_not_le hi
    refine .started hoff ?_ ?_ (fun j hij => ⟨?_, ?_⟩) rfl rfl rfl
    · rw [isOffline, isOffline_modify, List.getElem?_eq_getElem hi]
      simp
    · rw [held, held_modify, List.getElem?_eq_getElem hi]
      simp
    · rw [isOffline, isOffline_modify]
      simp [hij, isOffline]
    · rw [held, held_modify]
      simp [hij, held]

/-- The probe of a number comes to stand elsewhere. -/
def moveProbe (r : Registry) (id : Nat) (phase : ProbePhase) : Registry :=
  { r with probes := r.probes.map (Probe.moveIf id phase) }

/-! ## Every probe that was started -/

/-- A registry, and every probe ever started on it with where it stands, the latest first. -/
structure Probing where
  registry : Registry
  started : List Probe

/-- What happens to the endpoints: one is chosen, lost, or found by other ways than a probe; or a
probe, running or not, takes its next step if that is due before a moment, whatever an attempt to
connect meets. -/
inductive Incident
  | chosen
  | lost (canProbe : Bool) (now i : Nat)
  | found (i : Nat)
  | stepped (id : Nat) (reach : Reach) (limit : Nat)

namespace Probing

variable {w : Probing}

/-- A probe takes its next step, its last one if nothing else is due. -/
def step (w : Probing) (p : Probe) (reach : Reach) : Probing :=
  match p.phase.step w.registry.schedule reach with
  | some phase =>
    ⟨w.registry.moveProbe p.id phase, w.started.map (Probe.moveIf p.id phase)⟩
  | none => { w with registry := w.registry.finishProbe p }

/-- The registry and its probes after an incident. -/
def after (w : Probing) : Incident → Probing
  | .chosen => { w with registry := w.registry.next.2 }
  | .lost canProbe now i =>
    match w.registry.markOffline canProbe now i with
    | (true, registry) => ⟨registry, ⟨w.registry.nextProbe, i, .start now⟩ :: w.started⟩
    | (false, registry) => { w with registry }
  | .found i => { w with registry := w.registry.markOnline i }
  | .stepped id reach limit =>
    match w.started.find? (·.id = id) with
    | some p => if p.phase.due < limit then w.step p reach else w
    | none => w

/-- The registry and its probes after several incidents. -/
def run (w : Probing) (es : List Incident) : Probing := es.foldl after w

@[simp] theorem run_nil (w : Probing) : w.run [] = w := rfl

@[simp] theorem run_cons (w : Probing) (e : Incident) (es : List Incident) :
    w.run (e :: es) = (w.after e).run es := rfl

theorem run_append (w : Probing) (es es' : List Incident) :
    w.run (es ++ es') = (w.run es).run es' := List.foldl_append

theorem run_concat (w : Probing) (es : List Incident) (e : Incident) :
    w.run (es ++ [e]) = (w.run es).after e := run_append w es [e]

/-! ## What every incident keeps -/

/-- Endpoints and probes go together. -/
structure Kept (w : Probing) : Prop where
  offline : ∀ i, w.registry.isOffline i = (w.registry.held i).isSome
  running : ∀ i id, w.registry.held i = some id ↔ ∃ p ∈ w.registry.probes, p.node = i ∧ p.id = id
  sublist : w.registry.probes.Sublist w.started
  latest : ∀ i id, w.registry.held i = some id →
    ∃ p, w.started.find? (·.node = i) = some p ∧ p.id = id
  fresh : ∀ p ∈ w.started, p.id < w.registry.nextProbe
  distinct : (w.started.map (·.id)).Nodup

namespace Kept

theorem started (h : w.Kept) (p : Probe) (hp : p ∈ w.registry.probes) : p ∈ w.started :=
  h.sublist.subset hp

/-- Two probes of one number are the same. -/
theorem eq_of_id (h : w.Kept) (hp : p ∈ w.started) (hq : q ∈ w.started) (hid : p.id = q.id) :
    p = q :=
  List.inj_on_of_nodup_map h.distinct hp hq hid

theorem held_of_mem (h : w.Kept) (hp : p ∈ w.registry.probes) :
    w.registry.held p.node = some p.id :=
  (h.running _ _).2 ⟨p, hp, rfl, rfl⟩

/-- A probe that its endpoint does not hold is not running. -/
theorem eq_of_held (h : w.Kept) (hi : w.registry.held i = some id) {p : Probe}
    (hp : p ∈ w.registry.probes) (hid : p.id = id) : p.node = i := by
  obtain ⟨q, hq, hnode, hid'⟩ := (h.running i id).1 hi
  rw [h.eq_of_id (h.started p hp) (h.started q hq) (hid.trans hid'.symm), hnode]

theorem filter_eq_of_ne (h : w.Kept) (hp : p ∈ w.started)
    (hne : w.registry.held p.node ≠ some p.id) :
    w.registry.probes.filter (·.id ≠ p.id) = w.registry.probes := by
  refine List.filter_eq_self.2 fun q hq => decide_eq_true fun hid => hne ?_
  rw [← h.eq_of_id (h.started q hq) hp hid]
  exact h.held_of_mem hq

/-- **A probe that was superseded changes nothing when it ends.** -/
theorem finishProbe_eq (h : w.Kept) (hp : p ∈ w.started)
    (hne : w.registry.held p.node ≠ some p.id) : w.registry.finishProbe p = w.registry := by
  rw [finishProbe_eq_of_ne hne, h.filter_eq_of_ne hp hne]

theorem found (h : w.Kept) (i : Nat) : (w.after (.found i)).Kept := by
  refine ⟨fun j => ?_, fun j id => ?_, List.filter_sublist.trans h.sublist,
    fun j id hj => ?_, h.fresh, h.distinct⟩
  · simp only [Probing.after, isOffline_markOnline, held_markOnline]
    by_cases hij : i = j <;> simp [hij, h.offline j]
  · simp only [Probing.after, held_markOnline, probes_markOnline, List.mem_filter,
      decide_eq_true_eq]
    by_cases hij : i = j
    · subst hij
      simp only [if_true, reduceCtorEq, false_iff]
      rintro ⟨p, ⟨hp, hne⟩, rfl, -⟩
      exact hne (h.held_of_mem hp).symm
    · rw [if_neg hij, h.running j id]
      refine exists_congr fun p => ⟨?_, fun ⟨⟨hp, _⟩, hnode, hid⟩ => ⟨hp, hnode, hid⟩⟩
      rintro ⟨hp, rfl, rfl⟩
      exact ⟨⟨hp, fun hheld => hij (h.eq_of_held hheld.symm hp rfl).symm⟩, rfl, rfl⟩
  · simp only [Probing.after, held_markOnline] at hj
    split at hj
    · cases hj
    · exact h.latest j id hj

theorem lost (h : w.Kept) (canProbe : Bool) (now i : Nat) :
    (w.after (.lost canProbe now i)).Kept := by
  have hl := lost_markOffline w.registry canProbe now i
  simp only [Probing.after]
  generalize w.registry.markOffline canProbe now i = y at hl
  cases hl with
  | unchanged => exact h
  | @started r' hon hoff hheld hother hprobes hnext _ =>
    have hnone : w.registry.held i = none := by
      rw [← Option.not_isSome_iff_eq_none, ← h.offline i, hon]
      exact Bool.false_ne_true
    refine ⟨fun j => ?_, fun j id => ?_, hprobes ▸ h.sublist.cons_cons _, fun j id hj => ?_,
      fun p hp => ?_, ?_⟩
    · by_cases hij : i = j
      · subst hij
        simp [hoff, hheld]
      · rw [(hother j hij).1, (hother j hij).2, h.offline j]
    · rw [hprobes]
      by_cases hij : i = j
      · subst hij
        rw [hheld, Option.some.injEq]
        constructor
        · rintro rfl
          exact ⟨_, List.mem_cons_self, rfl, rfl⟩
        · rintro ⟨p, hp, hnode, rfl⟩
          rcases List.mem_cons.1 hp with rfl | hp
          · rfl
          · rw [← hnode, h.held_of_mem hp] at hnone
            cases hnone
      · rw [(hother j hij).2, h.running j id]
        refine exists_congr fun p => and_congr_left fun ⟨hnode, _⟩ => ?_
        refine ⟨List.mem_cons_of_mem _, fun hp => ?_⟩
        rcases List.mem_cons.1 hp with rfl | hp
        · exact absurd hnode hij
        · exact hp
    · by_cases hij : i = j
      · subst hij
        rw [hheld] at hj
        exact ⟨_, List.find?_cons_of_pos (by simp), Option.some.inj hj⟩
      · rw [(hother j hij).2] at hj
        rw [List.find?_cons_of_neg (by simpa using hij)]
        exact h.latest j id hj
    · rw [hnext]
      rcases List.mem_cons.1 hp with rfl | hp
      · exact Nat.lt_succ_self _
      · exact Nat.lt_succ_of_lt (h.fresh p hp)
    · refine List.nodup_cons.2 ⟨fun hm => ?_, h.distinct⟩
      obtain ⟨p, hp, hid⟩ := List.mem_map.1 hm
      exact Nat.lt_irrefl _ (hid ▸ h.fresh p hp)

/-- Moving a probe changes neither its number nor the place of its endpoint. -/
theorem moved (h : w.Kept) (id : Nat) (phase : ProbePhase) :
    Kept ⟨w.registry.moveProbe id phase, w.started.map (Probe.moveIf id phase)⟩ := by
  refine ⟨h.offline, fun j k => ?_, h.sublist.map _, fun j k hj => ?_, fun p hp => ?_, ?_⟩
  · refine (h.running j k).trans ?_
    simp [moveProbe]
  · obtain ⟨q, hq, hid⟩ := h.latest j k hj
    have hnode : (fun x : Probe => decide (x.node = j)) ∘ Probe.moveIf id phase =
        fun x => decide (x.node = j) :=
      funext fun x => by rw [Function.comp_apply, Probe.node_moveIf]
    refine ⟨q.moveIf id phase, ?_, (Probe.id_moveIf _ _ _).trans hid⟩
    rw [List.find?_map, hnode, hq, Option.map_some]
  · obtain ⟨q, hq, rfl⟩ := List.mem_map.1 hp
    rw [Probe.id_moveIf]
    exact h.fresh q hq
  · simpa [Function.comp_def] using h.distinct

theorem step (h : w.Kept) (hp : p ∈ w.started) (reach : Reach) : (w.step p reach).Kept := by
  unfold Probing.step
  split
  · exact h.moved _ _
  · by_cases hheld : w.registry.held p.node = some p.id
    · rw [finishProbe_eq_markOnline hheld]
      exact h.found p.node
    · rw [h.finishProbe_eq hp hheld]
      exact h

/-- **Every incident keeps endpoints and probes together.** -/
theorem after (h : w.Kept) (e : Incident) : (w.after e).Kept := by
  cases e with
  | chosen =>
    obtain ⟨hoffline, hrunning, hsublist, hlatest, hfresh, hdistinct⟩ := h
    constructor <;> simpa [Probing.after]
  | lost canProbe now i => exact h.lost canProbe now i
  | found i => exact h.found i
  | stepped id reach limit =>
    simp only [Probing.after]
    split
    · rename_i p hp
      split
      · exact h.step (List.mem_of_find?_eq_some hp) reach
      · exact h
    · exact h

theorem run (h : w.Kept) (es : List Incident) : (w.run es).Kept := by
  induction es generalizing w with
  | nil => exact h
  | cons e es ih => exact ih (h.after e)

end Kept

/-- At the start of a registry no endpoint is offline and there is no probe. -/
theorem start_ofEndpoints {addresses : List String} {health : HealthSettings}
    (h : ofEndpoints addresses health = .ok r) :
    r.schedule.settings = health ∧ r.probes = [] ∧
      ∀ i, r.isOffline i = false ∧ r.held i = none := by
  obtain ⟨-, hpos, es, -, rfl⟩ := ofEndpoints_eq_ok h
  refine ⟨rfl, rfl, fun i => ?_⟩
  simp only [isOffline, held, starting, List.getElem?_map]
  cases es[i]? <;> exact ⟨rfl, rfl⟩

theorem kept_ofEndpoints {addresses : List String} {health : HealthSettings}
    (h : ofEndpoints addresses health = .ok r) : Kept ⟨r, []⟩ := by
  obtain ⟨-, hprobes, hall⟩ := start_ofEndpoints h
  exact ⟨fun i => by simp [hall i], fun i id => by simp [hall i, hprobes], by simp [hprobes],
    fun i id hi => by simp [hall i] at hi, by simp, List.nodup_nil⟩

/-! ## What may bring an endpoint back -/

@[simp] theorem schedule_step (w : Probing) (p : Probe) (reach : Reach) :
    (w.step p reach).registry.schedule = w.registry.schedule := by
  unfold Probing.step
  split
  · rfl
  · unfold finishProbe
    split <;> rfl

@[simp] theorem schedule_after (w : Probing) (e : Incident) :
    (w.after e).registry.schedule = w.registry.schedule := by
  cases e with
  | chosen => exact schedule_next _
  | lost canProbe now i =>
    have hl := lost_markOffline w.registry canProbe now i
    simp only [Probing.after]
    generalize w.registry.markOffline canProbe now i = y at hl
    cases hl with
    | unchanged => rfl
    | started _ _ _ _ _ _ hs => exact hs
  | found i => rfl
  | stepped id reach limit =>
    simp only [Probing.after]
    split
    · split
      · exact schedule_step _ _ _
      · rfl
    · rfl

theorem schedule_run (w : Probing) (es : List Incident) :
    (w.run es).registry.schedule = w.registry.schedule := by
  induction es generalizing w with
  | nil => rfl
  | cons e es ih => rw [run_cons, ih, schedule_after]

/-- Where a probe stood before an incident after which it stands somewhere. -/
inductive Stood (w : Probing) : Incident → Probe → Prop
  /-- Where it stands still. -/
  | still {e : Incident} {p : Probe} : p ∈ w.started → Stood w e p
  /-- It has just been started. -/
  | started {canProbe : Bool} {now i id : Nat} :
    Stood w (.lost canProbe now i) ⟨id, i, .start now⟩
  /-- It has just taken a step. -/
  | stepped {p : Probe} {reach : Reach} {limit : Nat} {phase : ProbePhase} :
    p ∈ w.started → p.phase.due < limit → p.phase.step w.registry.schedule reach = some phase →
    Stood w (.stepped p.id reach limit) { p with phase }

theorem stood_of_mem_after (hd : (w.started.map (·.id)).Nodup) {e : Incident}
    (hp : p ∈ (w.after e).started) : Stood w e p := by
  cases e with
  | chosen | found => exact .still hp
  | lost canProbe now i =>
    have hl := lost_markOffline w.registry canProbe now i
    simp only [Probing.after] at hp
    generalize w.registry.markOffline canProbe now i = y at hl hp
    cases hl with
    | unchanged => exact .still hp
    | started =>
      rcases List.mem_cons.1 hp with rfl | hp
      · exact .started
      · exact .still hp
  | stepped id reach limit =>
    simp only [Probing.after] at hp
    split at hp
    · rename_i q hq
      have hqm := List.mem_of_find?_eq_some hq
      obtain rfl : q.id = id := by simpa using List.find?_some hq
      split at hp
      · rename_i hdue
        unfold Probing.step at hp
        split at hp
        · rename_i phase hphase
          obtain ⟨q', hq', rfl⟩ := List.mem_map.1 hp
          unfold Probe.moveIf
          split
          · rename_i hid
            obtain rfl := List.inj_on_of_nodup_map hd hq' hqm hid
            exact .stepped hqm hdue hphase
          · exact .still hq'
        · exact .still hp
      · exact .still hp
    · exact .still hp

/-- **A probe that waits to be trusted has met an endpoint that accepts connections,** and waits for
the settling time from then on. -/
theorem accepted_of_settling (h : w.Kept) (hs : w.started = []) (es : List Incident)
    {t : Nat} (hp : ⟨id, i, .settling t⟩ ∈ (w.run es).started) :
    ∃ before limit after tick ready, es = before ++ .stepped id .accepts limit :: after ∧
      ⟨id, i, .waiting tick ready⟩ ∈ (w.run before).started ∧ max tick ready < limit ∧
      t = max tick ready + w.registry.schedule.settings.settleDelay.nanos := by
  induction es using List.reverseRecOn generalizing t with
  | nil =>
    rw [run_nil, hs] at hp
    exact absurd hp List.not_mem_nil
  | append_singleton es e ih =>
    rw [run_concat] at hp
    have hstood := stood_of_mem_after (h.run es).distinct hp
    generalize hq : (⟨id, i, .settling t⟩ : Probe) = q at hstood
    cases hstood with
    | still hm =>
      obtain ⟨before, limit, after, tick, ready, hes, h⟩ := ih (hq ▸ hm)
      exact ⟨before, limit, after ++ [e], tick, ready, by simp [hes], h⟩
    | started => cases hq
    | @stepped p reach limit phase hm hdue hphase =>
      obtain ⟨pid, node, stood⟩ := p
      cases hq
      rw [schedule_run] at hphase
      cases stood with
      | settling => cases hphase
      | waiting tick ready =>
        cases reach with
        | refuses | silent => cases hphase
        | accepts =>
          cases hphase
          exact ⟨es, limit, [], tick, ready, rfl, hm, hdue, rfl⟩

/-- Only a probe that waits to be trusted has nothing else to do. -/
theorem settling_of_step_eq_none {s : ProbeSchedule} {reach : Reach} {phase : ProbePhase}
    (h : phase.step s reach = none) : ∃ t, phase = .settling t := by
  cases phase with
  | settling t => exact ⟨t, rfl⟩
  | waiting tick ready => cases reach <;> cases h

/-- What brings an endpoint back is that it is found, or the last step of the probe it holds. -/
theorem Kept.cleared (h : w.Kept) {e : Incident} (hoff : w.registry.isOffline i = true)
    (hon : (w.after e).registry.isOffline i = false) :
    e = .found i ∨ ∃ id reach limit t, e = .stepped id reach limit ∧
      w.registry.held i = some id ∧ ⟨id, i, .settling t⟩ ∈ w.started ∧ t < limit := by
  have same {w' : Probing} (hw : w'.registry.isOffline i = w.registry.isOffline i)
      (hon : w'.registry.isOffline i = false) : False := by
    rw [hw, hoff] at hon
    cases hon
  cases e with
  | chosen => exact (same (isOffline_next _ _) hon).elim
  | lost canProbe now j =>
    have hl := lost_markOffline w.registry canProbe now j
    simp only [Probing.after] at hon
    generalize w.registry.markOffline canProbe now j = y at hl hon
    cases hl with
    | unchanged => exact (same rfl hon).elim
    | started hj _ _ hother =>
      have hij : j ≠ i := by
        rintro rfl
        rw [hj] at hoff
        cases hoff
      exact (same (hother i hij).1 hon).elim
  | found j =>
    by_cases hij : j = i
    · exact .inl (hij ▸ rfl)
    · have hsame : (w.after (.found j)).registry.isOffline i = w.registry.isOffline i := by
        simp [Probing.after, isOffline_markOnline, hij]
      exact (same hsame hon).elim
  | stepped id reach limit =>
    refine .inr ?_
    simp only [Probing.after] at hon
    split at hon
    · rename_i p hp
      have hpm := List.mem_of_find?_eq_some hp
      obtain rfl : p.id = id := by simpa using List.find?_some hp
      split at hon
      · rename_i hdue
        unfold Probing.step at hon
        split at hon
        · exact (same rfl hon).elim
        · rename_i hphase
          obtain ⟨t, ht⟩ := settling_of_step_eq_none hphase
          by_cases hheld : w.registry.held p.node = some p.id
          · rw [finishProbe_eq_markOnline hheld, isOffline_markOnline, hoff] at hon
            obtain rfl : p.node = i := by simpa using hon
            rw [ht] at hdue
            exact ⟨p.id, reach, limit, t, rfl, hheld, ht ▸ hpm, hdue⟩
          · rw [h.finishProbe_eq hpm hheld] at hon
            exact (same rfl hon).elim
      · exact (same rfl hon).elim
    · exact (same rfl hon).elim

/-! ## What a pool lets its probes do -/

theorem Kept.find?_id (h : w.Kept) (hp : p ∈ w.started) :
    w.started.find? (·.id = p.id) = some p := by
  cases hf : w.started.find? (·.id = p.id) with
  | none => simpa using List.find?_eq_none.1 hf p hp
  | some q =>
    have hid : q.id = p.id := by simpa using List.find?_some hf
    rw [h.eq_of_id (List.mem_of_find?_eq_some hf) hp hid]

theorem Kept.after_stepped (h : w.Kept) (hp : p ∈ w.started) (reach : Reach) {limit : Nat}
    (hdue : p.phase.due < limit) : w.after (.stepped p.id reach limit) = w.step p reach := by
  simp only [Probing.after, h.find?_id hp, if_pos hdue]

/-- Where a probe stands already it need not be moved. -/
theorem Kept.moveProbe_eq (h : w.Kept) (hp : p ∈ w.started) :
    w.registry.moveProbe p.id p.phase = w.registry := by
  have hmap : w.registry.probes.map (Probe.moveIf p.id p.phase) = w.registry.probes := by
    refine (List.map_congr_left fun q hq => ?_).trans (List.map_id _)
    unfold Probe.moveIf
    split
    · rename_i hid
      rw [h.eq_of_id (h.started q hq) hp hid]
      rfl
    · rfl
  simp only [moveProbe, hmap]

theorem moveProbe_moveProbe (r : Registry) (id : Nat) (a b : ProbePhase) :
    (r.moveProbe id a).moveProbe id b = r.moveProbe id b := by
  have hmove : Probe.moveIf id b ∘ Probe.moveIf id a = Probe.moveIf id b := by
    funext q
    simp only [Function.comp_apply, Probe.moveIf]
    by_cases h : q.id = id <;> simp [h]
  simp only [moveProbe, List.map_map, hmove]

/-- Where a probe stood when it ends makes no difference. -/
theorem finishProbe_moveProbe (r : Registry) (p : Probe) (phase : ProbePhase) :
    (r.moveProbe p.id phase).finishProbe { p with phase } = r.finishProbe p := by
  have hfilter : (r.probes.map (Probe.moveIf p.id phase)).filter (·.id ≠ p.id) =
      r.probes.filter (·.id ≠ p.id) := by
    rw [List.filter_map]
    simp only [Function.comp_def, Probe.id_moveIf]
    refine (List.map_congr_left fun q hq => ?_).trans (List.map_id _)
    exact if_neg (of_decide_eq_true (List.mem_filter.1 hq).2)
  unfold finishProbe
  simp only [moveProbe, hfilter]

theorem advance_of_step_none {s : ProbeSchedule} {reach : Reach} {limit : Nat} {phase : ProbePhase}
    (hdue : phase.due < limit) (h : phase.step s reach = none) :
    phase.advance s reach limit = none := by
  rw [ProbePhase.advance, dif_pos hdue]
  split
  · rfl
  · rename_i heq
    cases h.symm.trans heq

theorem advance_of_step_some {s : ProbeSchedule} {reach : Reach} {limit : Nat}
    {phase next : ProbePhase} (hdue : phase.due < limit) (h : phase.step s reach = some next) :
    phase.advance s reach limit = next.advance s reach limit := by
  rw [ProbePhase.advance, dif_pos hdue]
  split
  · rename_i heq
    cases h.symm.trans heq
  · rename_i next' heq
    rw [Option.some.inj (h.symm.trans heq)]

/-- Letting a probe do what is due is to let it take steps. -/
theorem Kept.run_advance (h : w.Kept) (hp : p ∈ w.started) (reach : Reach) (limit : Nat) :
    ∃ n, (w.run (List.replicate n (.stepped p.id reach limit))).registry =
      match p.phase.advance w.registry.schedule reach limit with
      | some phase => w.registry.moveProbe p.id phase
      | none => w.registry.finishProbe p := by
  generalize hs : w.registry.schedule = s
  generalize hphase : p.phase = phase
  induction phase using ProbePhase.advance.induct s reach limit generalizing w p with
  | case1 phase hdue hstep =>
    refine ⟨1, ?_⟩
    rw [advance_of_step_none hdue hstep]
    subst hs hphase
    simp only [List.replicate_one, run_cons, run_nil, h.after_stepped hp reach hdue, Probing.step, hstep]
  | case2 phase hdue next hstep ih =>
    rw [advance_of_step_some hdue hstep]
    subst hs hphase
    have hw : w.after (.stepped p.id reach limit) =
        ⟨w.registry.moveProbe p.id next, w.started.map (Probe.moveIf p.id next)⟩ := by
      rw [h.after_stepped hp reach hdue, Probing.step, hstep]
    have hp' : { p with phase := next } ∈ (w.after (.stepped p.id reach limit)).started := by
      rw [hw]
      exact List.mem_map.2 ⟨p, hp, if_pos rfl⟩
    obtain ⟨n, hn⟩ := ih (h.after _) hp' (schedule_after w _) rfl
    refine ⟨n + 1, ?_⟩
    rw [List.replicate_succ, run_cons]
    refine hn.trans ?_
    rw [hw]
    cases next.advance w.registry.schedule reach limit with
    | some phase => exact moveProbe_moveProbe _ _ _ _
    | none => exact finishProbe_moveProbe _ _ _
  | case3 phase hdue =>
    refine ⟨0, ?_⟩
    rw [ProbePhase.advance, dif_neg hdue]
    subst hs hphase
    exact (h.moveProbe_eq hp).symm

/-- Letting a probe do what is due is to let it take steps. -/
theorem Kept.runProbe (h : w.Kept) (hp : p ∈ w.started) (reach : String → Reach) (limit : Nat) :
    ∃ n, (w.run (.replicate n
        (.stepped p.id (reach (w.registry.address p.node)) limit))).registry =
      w.registry.runProbe reach limit p :=
  h.run_advance hp _ limit

/-- The steps of one probe leave the others where they stand. -/
theorem mem_run_stepped (hp : p ∈ w.started) (hne : p.id ≠ id) (reach : Reach) (limit n : Nat) :
    p ∈ (w.run (List.replicate n (.stepped id reach limit))).started := by
  induction n generalizing w with
  | zero => exact hp
  | succ n ih =>
    rw [List.replicate_succ, run_cons]
    refine ih ?_
    simp only [Probing.after]
    split
    · rename_i q hq
      obtain rfl : q.id = id := by simpa using List.find?_some hq
      unfold Probing.step
      split
      · split
        · exact List.mem_map.2 ⟨p, hp, if_neg hne⟩
        · exact hp
      · exact hp
    · exact hp

/-- **Letting all probes that run do what is due is a run of their steps.** -/
theorem Kept.runProbes (h : w.Kept) (reach : String → Reach) (limit : Nat) :
    ∃ es : List Incident, (∀ e ∈ es, ∃ id x, e = .stepped id x limit) ∧
      (w.run es).registry = w.registry.runProbes reach limit := by
  have hstarted := h.started
  have hd : (w.registry.probes.map (·.id)).Nodup := h.distinct.sublist (h.sublist.map _)
  rw [Registry.runProbes]
  generalize w.registry.probes = ps at hstarted hd
  induction ps generalizing w with
  | nil => exact ⟨[], by simp, rfl⟩
  | cons p ps ih =>
    obtain ⟨n, hn⟩ := h.runProbe (hstarted p List.mem_cons_self) reach limit
    obtain ⟨hnotin, hd⟩ := List.nodup_cons.1 hd
    obtain ⟨es, hes, hrun⟩ := ih (h.run _)
      (fun q hq => mem_run_stepped (hstarted q (List.mem_cons_of_mem p hq))
        (fun hid => hnotin (List.mem_map.2 ⟨q, hq, hid⟩)) _ _ n) hd
    refine ⟨_ ++ es, fun e he => ?_, by rw [run_append, hrun, hn, List.foldl_cons]⟩
    rcases List.mem_append.1 he with he | he
    · exact ⟨_, _, List.eq_of_mem_replicate he⟩
    · exact hes e he

end Probing

/-- The registry and its probes after incidents, if none was started before. -/
def probing (r : Registry) (es : List Incident) : Probing := Probing.run ⟨r, []⟩ es

/-- **An endpoint is offline just as long as it holds a probe.** However losses and finds of
endpoints and steps of probes follow on each other, those of probes included that were stopped or
have ended: an endpoint is offline if and only if it holds a probe; that probe runs and is the one
started last for it, and no other of its probes runs; an endpoint is reported as newly lost if and
only if it goes from online to offline; it comes back only if it is found, or by the last step of
the probe it holds, which has met an endpoint that accepts connections and has waited for the
settling time since; and a probe that its endpoint does not hold changes nothing when it ends. -/
theorem offline_iff_held {addresses : List String} {health : HealthSettings}
    (h : ofEndpoints addresses health = .ok r) (es : List Incident) :
    (∀ i, (r.probing es).registry.isOffline i = true ↔
      ∃ id, (r.probing es).registry.held i = some id) ∧
    (∀ i id, (r.probing es).registry.held i = some id →
      ∃ p ∈ (r.probing es).registry.probes, p.id = id ∧
        (r.probing es).started.find? (·.node = i) = some p) ∧
    (∀ p ∈ (r.probing es).registry.probes,
      (r.probing es).registry.held p.node = some p.id) ∧
    (∀ canProbe now i, ((r.probing es).registry.markOffline canProbe now i).1 = true ↔
      (r.probing es).registry.isOffline i = false ∧
        ((r.probing es).registry.markOffline canProbe now i).2.isOffline i = true) ∧
    (∀ e i, (r.probing es).registry.isOffline i = true →
      (r.probing (es ++ [e])).registry.isOffline i = false →
      e = .found i ∨ ∃ id reach limit before limit' after tick ready,
        e = .stepped id reach limit ∧ (r.probing es).registry.held i = some id ∧
        es = before ++ .stepped id .accepts limit' :: after ∧
        ⟨id, i, .waiting tick ready⟩ ∈ (r.probing before).started ∧ max tick ready < limit' ∧
        max tick ready + health.settleDelay.nanos < limit) ∧
    ∀ p ∈ (r.probing es).started, (r.probing es).registry.held p.node ≠ some p.id →
      (r.probing es).registry.finishProbe p = (r.probing es).registry := by
  have h₀ := Probing.kept_ofEndpoints h
  have hk : (r.probing es).Kept := h₀.run es
  refine ⟨fun i => ?_, fun i id hi => ?_, fun p hp => hk.held_of_mem hp, fun canProbe now i => ?_,
    fun e i hoff hon => ?_, fun p hp hne => hk.finishProbe_eq hp hne⟩
  · rw [hk.offline i, Option.isSome_iff_exists]
  · obtain ⟨q, hq, hid⟩ := hk.latest i id hi
    obtain ⟨p, hp, hnode, hid'⟩ := (hk.running i id).1 hi
    obtain rfl := hk.eq_of_id (hk.started p hp) (List.mem_of_find?_eq_some hq)
      (hid'.trans hid.symm)
    exact ⟨p, hp, hid, hq⟩
  · have hl := lost_markOffline (r.probing es).registry canProbe now i
    generalize (r.probing es).registry.markOffline canProbe now i = y at hl ⊢
    cases hl with
    | started hon hoff => exact iff_of_true rfl ⟨hon, hoff⟩
    | unchanged =>
      refine iff_of_false Bool.false_ne_true fun ⟨hon, hoff⟩ => ?_
      cases hon.symm.trans hoff
  · rw [probing, Probing.run_concat] at hon
    obtain he | ⟨id, reach, limit, t, he, hheld, hmem, hdue⟩ := hk.cleared hoff hon
    · exact .inl he
    · obtain ⟨before, limit', after, tick, ready, hes, hb, hmet, rfl⟩ :=
        Probing.accepted_of_settling h₀ rfl es hmem
      rw [(Probing.start_ofEndpoints h).1] at hdue
      exact .inr ⟨id, reach, limit, before, limit', after, tick, ready, he, hheld, hes, hb, hmet,
        hdue⟩

/-! ## A probe that ends late -/

/-- An endpoint is lost, and its probe is about to end when the endpoint is found by another way
and lost once more. The first probe then ends, and the second one meets an endpoint that accepts
connections. -/
def lostTwice : List Incident :=
  [.lost true 0 0, .stepped 0 .accepts 1, .found 0, .lost true 7 0,
    .stepped 0 .refuses 10000000000, .stepped 1 .accepts 8]

/-- After this the endpoint is offline and holds the second probe, and the first one changes nothing
should it end once more. The second one brings the endpoint back ten seconds later, because it has
met one that accepts connections. -/
theorem offline_lostTwice :
    (untried.probing lostTwice).registry.isOffline 0 = true ∧
    (∃ p ∈ (untried.probing lostTwice).registry.probes, p.id = 1 ∧
      (untried.probing lostTwice).started.find? (·.node = 0) = some p) ∧
    (untried.probing lostTwice).registry.finishProbe ⟨0, 0, .settling 3000000000⟩ =
      (untried.probing lostTwice).registry ∧
    (untried.probing (lostTwice ++ [.stepped 1 .refuses 10000000000])).registry.isOffline 0 =
      false ∧
    ∃ before limit after, lostTwice = before ++ .stepped 1 .accepts limit :: after := by
  obtain ⟨hoffline, hheld, -, -, hcleared, hlate⟩ := offline_iff_held ofEndpoints_untried lostTwice
  have hone : (untried.probing lostTwice).registry.held 0 = some 1 := by decide +kernel
  have hoff := (hoffline 0).2 ⟨1, hone⟩
  have hon : (untried.probing (lostTwice ++ [.stepped 1 .refuses 10000000000])).registry.isOffline
      0 = false := by decide +kernel
  have hfirst : (⟨0, 0, .settling 3000000000⟩ : Probe) ∈ (untried.probing lostTwice).started := by
    decide +kernel
  refine ⟨hoff, hheld 0 1 hone, hlate _ hfirst (by decide +kernel), hon, ?_⟩
  obtain he | ⟨id, reach, limit, before, limit', after, -, -, he, -, hes, -⟩ :=
    hcleared _ 0 hoff hon
  · cases he
  · cases he
    exact ⟨before, limit', after, hes⟩

end Registry

end TagStore
