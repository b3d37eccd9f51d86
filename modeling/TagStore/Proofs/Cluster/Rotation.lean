import TagStore.Proofs.Cluster.Choice
import Mathlib.Data.List.Chain
import Mathlib.Data.List.Perm.Subperm

/-!
# The rotation is fair

The turns of a registry are counted by its cursor: turn `t` belongs to the endpoint at `t` modulo
their number. Where any endpoint is online, a choice takes a turn that is not before the cursor and
passes over none whose endpoint is online, and the next choice looks from there on
(`Registry.Chosen.exists_turn`, `Registry.isChain_choices`). So an endpoint that stays online is
met before any other comes round again (`Registry.rotation_fair`).
-/

namespace TagStore

namespace Registry

variable {r : Registry} {y : Nat × Registry}

/-- A choice, with the registry that it finds. -/
structure Choice where
  found : Registry

namespace Choice

/-- The endpoint that is chosen. -/
def place (c : Choice) : Nat := c.found.next.1

/-- Whether one choice follows on another, with nothing but other events between them. -/
structure Precedes (a b : Choice) : Prop where
  cursor : b.found.cursor = a.found.next.2.cursor
  size : b.found.size = a.found.size

end Choice

/-- The choices among events that happen one after the other. -/
def choices : List Event → Registry → List Choice
  | [], _ => []
  | .choice :: es, r => ⟨r⟩ :: choices es (r.after .choice)
  | e :: es, r => choices es (r.after e)

/-! ## One choice -/

/-- **A choice passes over no turn of an endpoint that is online.** -/
theorem Chosen.exists_turn {q : Nat} (h : Chosen r y) (hq : r.cursor ≤ q)
    (hon : q % r.size ∈ r.online) :
    ∃ t, r.cursor ≤ t ∧ t ≤ q ∧ y.1 = t % r.size ∧ y.2.cursor = t + 1 := by
  cases h with
  | @turn k hk _ hoff =>
    refine ⟨r.cursor + k, Nat.le_add_right _ _, ?_, rfl, Nat.add_right_comm _ _ _⟩
    by_contra hlt
    have hoff := hoff (q - r.cursor) (by omega)
    rw [Nat.add_sub_cancel' hq, (mem_online.1 hon).2] at hoff
    cases hoff
  | stalest hnone =>
    rw [hnone] at hon
    exact absurd hon List.not_mem_nil

/-! ## Choices in a row -/

theorem isChain_cons_choices (es : List Event) {r : Registry} {a : Choice}
    (hc : r.cursor = a.found.next.2.cursor) (hs : r.size = a.found.size) :
    (a :: choices es r).IsChain Choice.Precedes := by
  induction es generalizing r a with
  | nil => exact List.isChain_singleton a
  | cons e es ih =>
    have other (he : e ≠ .choice) : (a :: choices es (r.after e)).IsChain Choice.Precedes :=
      ih ((cursor_eq_of_rotation (rotation_after he)).trans hc)
        ((size_eq_of_rotation (rotation_after he)).trans hs)
    cases e with
    | choice => exact List.isChain_cons_cons.2 ⟨⟨hc, hs⟩, ih rfl (size_next r)⟩
    | lost | found | probed => exact other (by simp)

/-- **Every choice starts where the one before it stopped.** -/
theorem isChain_choices (es : List Event) (r : Registry) :
    (choices es r).IsChain Choice.Precedes := by
  induction es generalizing r with
  | nil => exact List.isChain_nil
  | cons e es ih =>
    cases e with
    | choice => exact isChain_cons_choices es rfl (size_next r)
    | lost | found | probed => exact ih _

/-- While the endpoint of a turn to come stays online and is not chosen, the cursor does not pass
that turn. -/
theorem cursor_le_of_ne (lo q : Nat) {n : Nat} {between : List Choice} {a b : Choice}
    (hchain : (a :: (between ++ [b])).IsChain Choice.Precedes) (hn : a.found.size = n)
    (hon : ∀ c ∈ between, q % n ∈ c.found.online) (hne : ∀ c ∈ between, c.place ≠ q % n)
    (hlo : lo ≤ a.found.next.2.cursor) (hq : a.found.next.2.cursor ≤ q) :
    b.found.size = n ∧ lo ≤ b.found.cursor ∧ b.found.cursor ≤ q := by
  induction between generalizing a with
  | nil =>
    obtain ⟨hc, hs⟩ := (List.isChain_cons_cons.1 hchain).1
    exact ⟨hs.trans hn, hc ▸ hlo, hc ▸ hq⟩
  | cons c between ih =>
    obtain ⟨⟨hc, hs⟩, hchain⟩ := List.isChain_cons_cons.1 hchain
    have hcn : c.found.size = n := hs.trans hn
    have hcon := hon c List.mem_cons_self
    rw [← hcn] at hcon
    obtain ⟨t, hlot, htq, hplace, hcur⟩ := c.found.chosen_next.exists_turn (hc ▸ hq) hcon
    -- the turn of `c` is another one than `q`, whose endpoint is not chosen
    have htne : t ≠ q := by
      rintro rfl
      exact hne c List.mem_cons_self (hplace.trans (by rw [hcn]))
    exact ih hchain hcn (fun d hd => hon d (List.mem_cons_of_mem _ hd))
      (fun d hd => hne d (List.mem_cons_of_mem _ hd)) (by omega) (by omega)

/-- **Between two choices of one endpoint every other is chosen that stays online.** -/
theorem exists_chosen_between {between : List Choice} {a b : Choice} {f : Nat}
    (hchain : (a :: (between ++ [b])).IsChain Choice.Precedes) (hab : a.place = b.place)
    (hf : f ≠ a.place) (hon : ∀ c ∈ a :: (between ++ [b]), f ∈ c.found.online) :
    ∃ c ∈ between, c.place = f := by
  by_contra hnone
  have hfa := hon a List.mem_cons_self
  generalize hn : a.found.size = n at *
  have hfn : f < n := hn ▸ (mem_online.1 hfa).1
  -- `a` takes a turn `t`, and the next turn of `f` comes less than a round later
  obtain ⟨k, -, hk⟩ := Registry.exists_turn a.found.cursor hfn
  obtain ⟨t, -, -, hta, hcur⟩ := a.found.chosen_next.exists_turn
    (Nat.le_add_right a.found.cursor k) (by rw [hn, hk]; exact hfa)
  rw [hn] at hta
  obtain ⟨m, hm, hq⟩ := Registry.exists_turn (t + 1) hfn
  have hlt : m ≠ n - 1 := by
    rintro rfl
    rw [show t + 1 + (n - 1) = t + n by omega, Nat.add_mod_right] at hq
    exact hf (hq ▸ hta.symm)
  have hb : f ∈ b.found.online := hon b (by simp)
  obtain ⟨hbn, hlo, hle⟩ := cursor_le_of_ne (t + 1) (t + 1 + m) hchain hn
    (fun c hc => by rw [hq]; exact hon c (by simp [hc]))
    (fun c hc hcf => hnone ⟨c, hc, hcf.trans hq⟩) (by omega) (by omega)
  -- so `b` takes a turn within that round, and not one of the same endpoint
  obtain ⟨u, hlou, hleu, hub, -⟩ := b.found.chosen_next.exists_turn hle
    (by rw [hbn, hq]; exact hb)
  rw [hbn] at hub
  have hmod : t % n = u % n := hta.symm.trans (hab.trans hub)
  have hdvd : n ∣ u - t := Nat.dvd_of_mod_eq_zero (Nat.sub_mod_eq_zero_of_mod_eq hmod.symm)
  exact absurd (Nat.le_of_dvd (by omega) hdvd) (by omega)

/-- Where an endpoint is online, one that is online is chosen. -/
theorem Choice.place_mem_online {c : Choice} (h : c.found.online ≠ []) :
    c.place ∈ c.found.online := by
  have hc := c.found.chosen_next
  unfold Choice.place
  generalize c.found.next = y at hc ⊢
  cases hc with
  | turn hk hon _ => exact mem_online.2 ⟨Nat.mod_lt _ (Nat.zero_lt_of_lt hk), hon⟩
  | stalest hnone => exact absurd hnone h

/-! ## Fairness -/

/-- While the same endpoints are online, as many choices in a row as there are of them are of
different ones. -/
theorem nodup_places {cs : List Choice} {S : List Nat} (hchain : cs.IsChain Choice.Precedes)
    (hlen : cs.length = S.length) (hon : ∀ c ∈ cs, c.found.online = S) :
    (cs.map Choice.place).Nodup := by
  rw [List.Nodup, List.pairwise_map]
  refine List.pairwise_iff_forall_sublist.2 fun {a b} hsub hab => ?_
  obtain ⟨_, _, rfl, ha, hb⟩ := List.cons_sublist_iff.1 hsub
  obtain ⟨before, between, rfl⟩ := List.append_of_mem ha
  obtain ⟨between', after, rfl⟩ := List.append_of_mem (List.singleton_sublist.1 hb)
  have hpart : a :: ((between ++ between') ++ [b]) <:+:
      before ++ a :: between ++ (between' ++ b :: after) := ⟨before, after, by simp⟩
  have hrow := List.IsChain.infix hchain hpart
  -- all that are online but the endpoint of `a` and `b` are chosen in between
  have hsub : S ⊆ a.place :: (between ++ between').map Choice.place := by
    intro f hf
    by_cases hfa : f = a.place
    · exact hfa ▸ List.mem_cons_self
    · obtain ⟨c, hc, rfl⟩ := exists_chosen_between hrow hab hfa
        fun c hc => by rw [hon c (hpart.subset hc)]; exact hf
      exact List.mem_cons_of_mem _ (List.mem_map_of_mem hc)
  have hS : S.Nodup := hon a (by simp) ▸ nodup_online a.found
  have hle := (List.subperm_of_subset hS hsub).length_le
  simp only [List.length_cons, List.length_map, List.length_append] at hle hlen
  omega

/-- **The rotation is fair.** Between two choices of one endpoint every other is chosen that is
online all the while. So while the same endpoints are online, as many choices in a row as there are
of them choose each once; and one that is offline is chosen only while all are. -/
theorem rotation_fair (r : Registry) (es : List Event) :
    (∀ before a between b after f, r.choices es = before ++ a :: between ++ b :: after →
      a.place = b.place → f ≠ a.place →
      (∀ c ∈ a :: between ++ [b], f ∈ c.found.online) → ∃ c ∈ between, c.place = f) ∧
    (∀ before row after S, r.choices es = before ++ row ++ after → row.length = S.length →
      (∀ c ∈ row, c.found.online = S) → (row.map Choice.place).Perm S) ∧
    ∀ c ∈ r.choices es, c.found.isOffline c.place = true →
      ∀ i < c.found.size, c.found.isOffline i = true := by
  have hchain := isChain_choices es r
  refine ⟨?_, ?_, ?_⟩
  · intro before a between b after f hcs hab hf hon
    have hpart : a :: (between ++ [b]) <:+: choices es r := ⟨before, after, by simp [hcs]⟩
    have hrow := List.IsChain.infix hchain hpart
    exact exists_chosen_between hrow hab hf hon
  · intro before row after S hcs hlen hon
    have hpart : row <:+: choices es r := ⟨before, after, hcs.symm⟩
    have hrow := List.IsChain.infix hchain hpart
    have hsub : row.map Choice.place ⊆ S := by
      intro i hi
      obtain ⟨c, hc, rfl⟩ := List.mem_map.1 hi
      have hne : S ≠ [] := List.ne_nil_of_length_pos (hlen ▸ List.length_pos_of_mem hc)
      have hmem := Choice.place_mem_online (c := c) (by rwa [hon c hc])
      rwa [hon c hc] at hmem
    refine (List.subperm_of_subset (nodup_places hrow hlen hon) hsub).perm_of_length_le ?_
    rw [List.length_map, hlen]
  · intro c _ hoff
    refine online_eq_nil.1 ?_
    by_contra hne
    rw [(mem_online.1 (Choice.place_mem_online hne)).2] at hoff
    cases hoff

/-! ## A round in which an endpoint is lost -/

/-- One round, the loss of the second endpoint, and three choices more. -/
def roundAndLoss : List Event :=
  [.choice, .choice, .choice, .lost true 0 1, .choice, .choice, .choice]

/-- Once the second of three endpoints is lost, the other two are chosen in turn. -/
theorem rotation_fair_lost :
    (∃ before a c b, choices roundAndLoss untried = before ++ a :: [c] ++ [b] ∧
      a.place = 0 ∧ b.place = 0 ∧ c.place = 2) ∧
    ∃ before row after, choices roundAndLoss untried = before ++ row ++ after ∧
      (row.map Choice.place).Perm [0, 2] := by
  obtain ⟨hpair, hrow, -⟩ := rotation_fair untried roundAndLoss
  constructor
  · obtain ⟨c, hc, hplace⟩ := hpair [_, _, _] _ [_] _ [] 2 rfl (by decide +kernel)
      (by decide +kernel) (by decide +kernel)
    obtain rfl := List.mem_singleton.1 hc
    exact ⟨[_, _, _], _, _, _, rfl, by decide +kernel, by decide +kernel, hplace⟩
  · exact ⟨[_, _, _], [_, _], [_], rfl,
      hrow [_, _, _] [_, _] [_] [0, 2] rfl rfl (by decide +kernel)⟩

end Registry

end TagStore
