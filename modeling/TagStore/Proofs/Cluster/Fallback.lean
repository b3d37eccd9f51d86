import TagStore.Proofs.Client.Failover
import TagStore.Proofs.Cluster.Rotation
import Mathlib.Data.List.Induction

/-!
# Choices while every endpoint is offline

The stamp of an endpoint tells how many choices had been made when it was chosen last, whatever
happened since (`Registry.Recalls`). So while every endpoint is offline, the choice falls on the one
whose last choice lies furthest back (`Registry.Recalls.oldest_next`).

Choices in a row that each fall on the oldest meet no endpoint twice before all were met
(`Registry.OldestFirst.perm_range`), and then the first of them is the oldest again
(`Registry.OldestFirst.eq_of_round`). This is the order in which endpoints are tried while all are
offline (`Registry.oldest_first`).
-/

namespace TagStore

namespace Registry

variable {r r' : Registry} {n i j : Nat} {past recent is : List Nat}

/-! ## The oldest of several -/

/-- Whether an endpoint is, of `n`, the one whose last choice lies furthest back; `past` holds the
choices, the latest first. One that was never chosen comes before all that were, and of several such
the first does. -/
structure Oldest (n : Nat) (past : List Nat) (i : Nat) : Prop where
  lt : i < n
  idxOf_le : ∀ j < n, past.idxOf j ≤ past.idxOf i
  idxOf_lt : ∀ j < i, past.idxOf j < past.idxOf i

/-- Whether choices in a row each fall on the oldest endpoint. -/
def OldestFirst (n : Nat) (past is : List Nat) : Prop :=
  ∀ front i back, is = front ++ i :: back → Oldest n (front.reverse ++ past) i

/-- While some endpoint was not chosen lately, the oldest was not. -/
theorem Oldest.notMem (h : Oldest n (recent ++ past) i) (hlen : recent.length < n) :
    i ∉ recent := by
  intro hi
  obtain ⟨j, hj, hnot⟩ := exists_notMem hlen
  have hlt := List.idxOf_lt_length_of_mem hi
  have hle := h.idxOf_le j hj
  rw [List.idxOf_append_of_mem hi, List.idxOf_append_of_notMem hnot] at hle
  omega

namespace OldestFirst

theorem of_append {js : List Nat} (h : OldestFirst n past (is ++ js)) : OldestFirst n past is := by
  rintro front i back rfl
  exact h front i (back ++ js) (by simp)

theorem lt_of_mem (h : OldestFirst n past is) : ∀ i ∈ is, i < n := by
  intro i hi
  obtain ⟨front, back, rfl⟩ := List.append_of_mem hi
  exact (h front i back rfl).lt

theorem nodup (h : OldestFirst n past is) (hlen : is.length ≤ n) : is.Nodup := by
  induction is using List.reverseRecOn with
  | nil => exact List.nodup_nil
  | append_singleton is i ih =>
    rw [List.length_append, List.length_singleton] at hlen
    have hi := (h is i [] rfl).notMem (by rw [List.length_reverse]; omega)
    rw [List.mem_reverse] at hi
    simpa using (ih h.of_append (by omega)).concat hi

/-- **As many choices as there are endpoints meet each of them once.** -/
theorem perm_range (h : OldestFirst n past is) (hlen : is.length = n) :
    is.Perm (List.range n) :=
  perm_range_of_nodup (h.nodup hlen.le) h.lt_of_mem hlen.ge

/-- **After a round the same endpoint comes again.** -/
theorem eq_of_round {round : List Nat} (h : OldestFirst n past (i :: round ++ [j]))
    (hlen : round.length + 1 = n) : j = i := by
  have hround := h.of_append
  have hj := h (i :: round) j [] rfl
  by_contra hne
  have hmem : j ∈ i :: round := (hround.perm_range hlen).mem_iff.2 (List.mem_range.2 hj.lt)
  have hmem : j ∈ round.reverse := List.mem_reverse.2 ((List.mem_cons.1 hmem).resolve_left hne)
  have hnot : i ∉ round.reverse := fun hi =>
    (List.nodup_cons.1 (hround.nodup hlen.le)).1 (List.mem_reverse.1 hi)
  -- the other endpoints of the round were chosen after `i`
  have hlt := List.idxOf_lt_length_of_mem hmem
  have hle := hj.idxOf_le i (hround.lt_of_mem i List.mem_cons_self)
  rw [List.reverse_cons, List.append_assoc, List.idxOf_append_of_notMem hnot,
    List.idxOf_append_of_mem hmem] at hle
  omega

end OldestFirst

/-! ## What the stamps tell -/

/-- Whether the stamps of a registry tell its past choices, the latest first. -/
structure Recalls (r : Registry) (past : List Nat) : Prop where
  sound : r.Sound
  ticks : r.ticks = past.length
  stampOf : ∀ i, r.stampOf i = past.length - past.idxOf i

namespace Recalls

theorem ofEndpoints {addresses : List String} {health : HealthSettings}
    (h : Registry.ofEndpoints addresses health = .ok r) : r.Recalls [] := by
  have hs := sound_ofEndpoints h
  have ht : r.ticks = 0 := by
    obtain ⟨-, hpos, es, -, rfl⟩ := ofEndpoints_eq_ok h
    rfl
  exact ⟨hs, ht, fun i => Nat.le_zero.1 (ht ▸ hs.stampOf_le i)⟩

theorem of_rotation (h : r.Recalls past) (hrot : r'.rotation = r.rotation) : r'.Recalls past where
  sound := h.sound.of_rotation hrot
  ticks := (ticks_eq_of_rotation hrot).trans h.ticks
  stampOf i := (stampOf_eq_of_rotation hrot i).trans (h.stampOf i)

/-- A choice is one more that the stamps tell. -/
theorem choice (h : r.Recalls past) : (r.after .choice).Recalls (r.next.1 :: past) := by
  obtain ⟨-, ht, hst⟩ := h.sound.stampOf_next
  refine ⟨h.sound.after .choice, ht.trans (by rw [h.ticks]; rfl), fun i => ?_⟩
  refine (hst i).trans ?_
  rw [h.ticks, h.stampOf, List.length_cons]
  split
  · rename_i hi
    rw [List.idxOf_cons_eq _ hi, Nat.sub_zero]
  · rename_i hi
    rw [List.idxOf_cons_ne _ hi, Nat.succ_sub_succ]

/-- **While every endpoint is offline, the oldest is chosen.** -/
theorem oldest_next (h : r.Recalls past) (hoff : r.online = []) : Oldest r.size past r.next.1 := by
  have hnext : r.next.1 = r.stalest := by
    have hc := r.chosen_next
    generalize r.next = y at hc ⊢
    cases hc with
    | @turn k hk hon _ =>
      rw [online_eq_nil.1 hoff _ (Nat.mod_lt _ h.sound.size_pos)] at hon
      cases hon
    | stalest => rfl
  obtain ⟨hlt, hmin⟩ := stalest_spec h.sound.size_pos
  rw [hnext]
  refine ⟨hlt, fun j hj => ?_, fun j hj => ?_⟩
  · have hle := hmin j hj
    have hj' := List.idxOf_le_length (a := j) (l := past)
    rw [h.stampOf, h.stampOf] at hle
    omega
  · have hlt := stampOf_stalest_lt h.sound.size_pos hj
    rw [h.stampOf, h.stampOf] at hlt
    omega

/-- What a choice among events finds recalls the choices before it. -/
theorem found {es : List Event} {before after : List Choice} {c : Choice} (h : r.Recalls past)
    (hc : r.choices es = before ++ c :: after) :
    c.found.Recalls ((before.map Choice.place).reverse ++ past) ∧ c.found.size = r.size := by
  induction es generalizing r past before with
  | nil => simp [choices] at hc
  | cons e es ih =>
    have other (he : e ≠ .choice) (hc : (r.after e).choices es = before ++ c :: after) :
        c.found.Recalls ((before.map Choice.place).reverse ++ past) ∧ c.found.size = r.size := by
      have hrot := rotation_after (r := r) he
      obtain ⟨hrec, hsize⟩ := ih (h.of_rotation hrot) hc
      exact ⟨hrec, hsize.trans (size_eq_of_rotation hrot)⟩
    cases e with
    | choice =>
      cases before with
      | nil =>
        obtain ⟨rfl, -⟩ := List.cons.inj hc
        exact ⟨h, rfl⟩
      | cons b before =>
        obtain ⟨rfl, hrest⟩ := List.cons.inj hc
        obtain ⟨hrec, hsize⟩ := ih h.choice hrest
        refine ⟨?_, hsize.trans (size_next r)⟩
        rw [List.map_cons, List.reverse_cons, List.append_assoc]
        exact hrec
    | lost | found | probed => exact other (by simp) hc

/-- Choices in a row that find every endpoint offline fall on the oldest each. -/
theorem oldestFirst {es : List Event} {before row after : List Choice} (h : r.Recalls past)
    (hc : r.choices es = before ++ row ++ after) (hoff : ∀ c ∈ row, c.found.online = []) :
    OldestFirst r.size ((before.map Choice.place).reverse ++ past) (row.map Choice.place) := by
  intro front i back hrow
  obtain ⟨front, rest, rfl, rfl, hrest⟩ := List.map_eq_append_iff.1 hrow
  obtain ⟨c, back, rfl, rfl, rfl⟩ := List.map_eq_cons_iff.1 hrest
  have hc : r.choices es = (before ++ front) ++ c :: (back ++ after) := by
    rw [hc]
    simp
  obtain ⟨hrec, hsize⟩ := h.found hc
  have hold := hrec.oldest_next (hoff c (by simp))
  rw [hsize, List.map_append, List.reverse_append, List.append_assoc] at hold
  exact hold

end Recalls

/-- **Whatever registry arises, a run of events leads to it**, also where connections are opened. -/
theorem Reachable.exists_run (h : r.Reachable) : ∃ addresses health r₀,
    ofEndpoints addresses health = .ok r₀ ∧ ∃ es : List Event, es.foldl Registry.after r₀ = r := by
  have step (r : Registry) (e : Event) : (∃ addresses health r₀,
      ofEndpoints addresses health = .ok r₀ ∧ ∃ es : List Event, es.foldl Registry.after r₀ = r) →
      ∃ addresses health r₀, ofEndpoints addresses health = .ok r₀ ∧
        ∃ es : List Event, es.foldl Registry.after r₀ = r.after e := by
    rintro ⟨addresses, health, r₀, h₀, es, rfl⟩
    exact ⟨addresses, health, r₀, h₀, es ++ [e], by rw [List.foldl_append]; rfl⟩
  induction h with
  | start h₀ => exact ⟨_, _, _, h₀, [], rfl⟩
  | event e _ ih => exact step _ e ih
  | opening net _ ih => exact Pool.openFrom_keeps step net _ _ _ _ ih

/-! ## The order while all are offline -/

/-- **With every endpoint offline the oldest is tried first.** In any run a choice that finds every
endpoint offline falls on the one whose last choice lies furthest back, and puts none back into use.
As many such choices in a row as there are endpoints meet each of them once, and after that they
come round in the same order. Whatever registry arises, such a run leads to it. -/
theorem oldest_first :
    (∀ addresses health r₀, ofEndpoints addresses health = .ok r₀ → ∀ es : List Event,
      (∀ before c after, r₀.choices es = before ++ c :: after → c.found.online = [] →
        Oldest r₀.size (before.map Choice.place).reverse c.place ∧
          ∀ i, c.found.next.2.isOffline i = c.found.isOffline i) ∧
      (∀ before row after, r₀.choices es = before ++ row ++ after →
        (∀ c ∈ row, c.found.online = []) → row.length = r₀.size →
        (row.map Choice.place).Perm (List.range r₀.size)) ∧
      ∀ before a between b after, r₀.choices es = before ++ (a :: between ++ [b]) ++ after →
        (∀ c ∈ a :: between ++ [b], c.found.online = []) → between.length + 1 = r₀.size →
        b.place = a.place) ∧
    ∀ r : Registry, r.Reachable → ∃ addresses health r₀,
      ofEndpoints addresses health = .ok r₀ ∧
        ∃ es : List Event, es.foldl Registry.after r₀ = r := by
  refine ⟨fun addresses health r₀ h₀ es => ?_, fun r hr => hr.exists_run⟩
  have hrec := Recalls.ofEndpoints h₀
  refine ⟨?_, ?_, ?_⟩
  · intro before c after hc hoff
    obtain ⟨hfound, hsize⟩ := hrec.found hc
    have hold := hfound.oldest_next hoff
    rw [hsize, List.append_nil] at hold
    exact ⟨hold, fun i => isOffline_next c.found i⟩
  · intro before row after hc hoff hlen
    exact (hrec.oldestFirst hc hoff).perm_range (by rw [List.length_map, hlen])
  · intro before a between b after hc hoff hlen
    have hrow := hrec.oldestFirst hc hoff
    rw [List.map_append, List.map_cons, List.map_singleton] at hrow
    exact hrow.eq_of_round (by rw [List.length_map, hlen])

/-- One choice, the loss of all three endpoints, and four choices more. -/
def choiceAndLosses : List Event :=
  [.choice, .lost true 0 0, .lost true 0 1, .lost true 0 2, .choice, .choice, .choice, .choice]

/-- Once all of three endpoints are lost, the two that were not chosen before come first. -/
theorem oldest_first_lost :
    ∃ first row b, untried.choices choiceAndLosses = [first] ++ row ++ [b] ∧
      (row.map Choice.place).Perm [0, 1, 2] ∧ row.map Choice.place = [1, 2, 0] ∧ b.place = 1 := by
  obtain ⟨-, hperm, hround⟩ := oldest_first.1 _ _ untried ofEndpoints_untried choiceAndLosses
  refine ⟨_, [_, _, _], _, rfl, hperm [_] [_, _, _] [_] rfl (by decide +kernel) rfl,
    by decide +kernel, ?_⟩
  exact (hround [_] _ [_, _] _ [] rfl (by decide +kernel) rfl).trans (by decide +kernel)

end Registry

end TagStore
