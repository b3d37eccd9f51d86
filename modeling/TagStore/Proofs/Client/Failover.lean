import TagStore.Client.Pool
import TagStore.Proofs.Cluster.Staleness
import Mathlib.Data.Finset.Basic

/-!
# Failover

Opening a connection is a search: an endpoint is chosen and tried, and after a failure the next. Each
failure takes its endpoint out of use and leaves a late stamp on it, so as long as nothing else
brings an endpoint back, no endpoint is tried twice (`Pool.searched_searchFrom`). The search ends
with a connection if any endpoint accepts one, and otherwise when it has tried them all
(`Pool.failover_complete`).
-/

namespace TagStore

variable {ω : Type} {net : Network ω}

/-- An attempt to connect to an endpoint, and whether it is reached. -/
structure Attempt where
  place : Nat
  reached : Bool
deriving Repr, DecidableEq

/-- What a search for an endpoint does and what it comes to. -/
structure Search (ω : Type) where
  /-- The pools that its choices of an endpoint find. -/
  choices : List (Pool ω)
  /-- The endpoints that it tries to connect to. -/
  attempts : List Attempt
  result : Except ClientError Connection × Pool ω

namespace Pool

/-- The search for an endpoint, told step by step. -/
def searchFrom (net : Network ω) (left attempts : Nat) (first : Option Nat) (lastError : String)
    (p : Pool ω) : Search ω :=
  match left with
  | 0 => ⟨[], [], .error (.noAvailableEndpoint attempts lastError), p⟩
  | left + 1 =>
    let (i, p₁) := p.nextEndpoint net
    if first = some i then ⟨[p], [], .error (.noAvailableEndpoint attempts lastError), p₁⟩
    else
      match p₁.connect net i with
      | (.ok link, p₂) =>
        let p₂ := if p₂.registry.isOffline i then p₂.markOnline i else p₂
        let (c, p₂) := p₂.register net link i
        ⟨[p], [⟨i, true⟩], .ok c, p₂⟩
      | (.error text, p₂) =>
        let s := searchFrom net left (attempts + 1) (first.or (some i)) text
          (p₂.markOffline net i).2
        { s with choices := p :: s.choices, attempts := ⟨i, false⟩ :: s.attempts }

/-- The search that opens a connection. -/
def search (net : Network ω) (p : Pool ω) : Search ω :=
  p.searchFrom net p.registry.size 0 none "no endpoint attempted"

theorem result_searchFrom (net : Network ω) (left attempts : Nat) (first : Option Nat)
    (lastError : String) (p : Pool ω) :
    (searchFrom net left attempts first lastError p).result =
      openFrom net left attempts first lastError p := by
  induction left generalizing attempts first lastError p with
  | zero => rfl
  | succ left ih =>
    rw [searchFrom, openFrom]
    rcases p.nextEndpoint net with ⟨i, p₁⟩
    simp only
    split
    · rfl
    · rcases p₁.connect net i with ⟨_ | link, p₂⟩
      · exact ih _ _ _ _
      · rfl

/-- **The search gives what opening gives.** -/
theorem result_search (net : Network ω) (p : Pool ω) : (p.search net).result = p.openNew net :=
  result_searchFrom net _ _ _ _ p

/-! ## What a round of the search changes -/

/-- Whether the probes that are due bring no endpoint back. -/
def Calm (net : Network ω) (p : Pool ω) : Prop :=
  ∀ i, (p.catchUp net).registry.isOffline i = p.registry.isOffline i

/-- What events keep, probes keep. -/
theorem catchUp_keeps {P : Registry → Prop} (hP : ∀ r e, e ≠ .choice → P r → P (r.after e))
    (net : Network ω) {p : Pool ω} (hp : P p.registry) : P (p.catchUp net).registry :=
  List.foldlRecOn p.registry.probes _ hp fun r hr q _ =>
    hP r (.probed (fun addr => net.reach addr p.net) (net.now p.net) q) (by simp) hr

theorem rotation_catchUp (net : Network ω) (p : Pool ω) :
    (p.catchUp net).registry.rotation = p.registry.rotation :=
  catchUp_keeps (P := fun r => r.rotation = p.registry.rotation)
    (fun _ _ he hr => (Registry.rotation_after he).trans hr) net rfl

theorem registry_connect (net : Network ω) (i : Nat) (p : Pool ω) :
    (p.connect net i).2.registry = p.registry := by
  unfold connect
  simp only
  split <;> rfl

theorem live_connect (net : Network ω) (i : Nat) (p : Pool ω) :
    (p.connect net i).2.live = p.live := by
  unfold connect
  simp only
  split <;> rfl

/-! ## The search -/

/-- What a search comes to after `attempts` attempts, of the endpoints `tried`. -/
inductive Searched (p : Pool ω) (tried : List Nat) (attempts : Nat) : Search ω → Prop
  /-- The last endpoint that is tried is reached. -/
  | found (failed : List Attempt) {choices : List (Pool ω)} {last : Attempt} {c : Connection}
    {p' : Pool ω} :
    (∀ a ∈ failed, a.reached = false) → last.reached = true → c.node = last.place →
    (tried ++ (failed ++ [last]).map Attempt.place).Nodup →
    (∀ i ∈ tried ++ failed.map Attempt.place, p'.registry.isOffline i = true) →
    p'.registry.isOffline c.node = false →
    Searched p tried attempts ⟨choices, failed ++ [last], .ok c, p'⟩
  /-- All endpoints are tried and none is reached. -/
  | exhausted (failed : List Attempt) {choices : List (Pool ω)} {text : String} {p' : Pool ω} :
    (∀ a ∈ failed, a.reached = false) →
    (tried ++ failed.map Attempt.place).Perm (List.range p.registry.size) →
    (∀ i ∈ tried ++ failed.map Attempt.place, p'.registry.isOffline i = true) →
    p'.live = p.live →
    Searched p tried attempts
      ⟨choices, failed, .error (.noAvailableEndpoint (attempts + failed.length) text), p'⟩

/-- A search after a first attempt that failed. -/
theorem Searched.cons {p p' q : Pool ω} {tried : List Nat} {attempts i : Nat} {s : Search ω}
    (h : Searched p' (tried ++ [i]) (attempts + 1) s) (hsize : p'.registry.size = p.registry.size)
    (hlive : p'.live = p.live) :
    Searched p tried attempts
      { s with choices := q :: s.choices, attempts := ⟨i, false⟩ :: s.attempts } := by
  cases h with
  | @found failed _ last c _ hf hl hc hnd hoff hon =>
    refine .found (⟨i, false⟩ :: failed) ?_ hl hc ?_ ?_ hon
    · simpa using hf
    · simpa using hnd
    · simpa using hoff
  | @exhausted failed _ text _ hf hperm hoff hl =>
    rw [Nat.add_assoc, Nat.add_comm 1, ← List.length_cons (a := ⟨i, false⟩)]
    refine .exhausted (⟨i, false⟩ :: failed) ?_ ?_ ?_ (hl.trans hlive)
    · simpa using hf
    · simpa [← hsize] using hperm
    · simpa using hoff

/-- The connection to an endpoint that is reached, and the pool that has it in its books. -/
theorem register_spec (net : Network ω) (link i : Nat) (p : Pool ω) :
    ∃ c p', register net link i (if p.registry.isOffline i then p.markOnline i else p) = (c, p') ∧
      c.node = i ∧ p'.registry.isOffline i = false ∧
      ∀ j, j ≠ i → p'.registry.isOffline j = p.registry.isOffline j := by
  refine ⟨_, _, rfl, rfl, ?_⟩
  by_cases hoff : p.registry.isOffline i = true
  · rw [if_pos hoff]
    refine ⟨(p.registry.isOffline_markOnline i i).trans (by simp), fun j hj => ?_⟩
    exact (p.registry.isOffline_markOnline i j).trans (by simp [Ne.symm hj])
  · rw [if_neg hoff]
    exact ⟨Bool.eq_false_iff.2 hoff, fun _ _ => rfl⟩

theorem head?_choices_searchFrom (net : Network ω) (left attempts : Nat) (first : Option Nat)
    (lastError : String) (p : Pool ω) :
    (searchFrom net (left + 1) attempts first lastError p).choices.head? = some p := by
  rw [searchFrom]
  simp only
  split
  · rfl
  · split <;> rfl

/-- **No endpoint is tried twice, and the search ends with the first that is reached.** -/
theorem searched_searchFrom {start left attempts : Nat} {tried : List Nat} {first : Option Nat}
    {lastError : String} {p : Pool ω} (ht : p.registry.Tried start tried)
    (hleft : left + tried.length = p.registry.size) (hfirst : ∀ i, first = some i → i ∈ tried)
    (hhead : tried ≠ [] →
      ∀ q ∈ (searchFrom net left attempts first lastError p).choices.head?, q.Calm net)
    (htail : ∀ q ∈ (searchFrom net left attempts first lastError p).choices.tail, q.Calm net) :
    Searched p tried attempts (searchFrom net left attempts first lastError p) := by
  induction left generalizing attempts first lastError p tried with
  | zero =>
    have hperm := ht.perm_range (by omega)
    exact .exhausted [] (by simp) (by simpa using hperm) (by simpa using ht.offline) rfl
  | succ left ih =>
    have hchoices := head?_choices_searchFrom net left attempts first lastError p
    -- nothing has brought an endpoint back since it was tried
    have hrot := p.rotation_catchUp net
    have ht : (p.catchUp net).registry.Tried start tried := by
      refine ht.of_rotation hrot fun i hi => ?_
      rw [hhead (List.ne_nil_of_mem hi) p hchoices]
      exact ht.offline i hi
    have hsize := Registry.size_eq_of_rotation hrot
    have hlt : tried.length < (p.catchUp net).registry.size := by omega
    -- so the endpoint that is chosen was not tried before
    obtain ⟨i, p₁, hn, hnext, hlive⟩ : ∃ i p₁, p.nextEndpoint net = (i, p₁) ∧
      (p.catchUp net).registry.next = (i, p₁.registry) ∧ p₁.live = p.live := ⟨_, _, rfl, rfl, rfl⟩
    have hsize₁ := Registry.size_next (p.catchUp net).registry
    have hoff₁ := Registry.isOffline_next (p.catchUp net).registry
    have hnew := ht.next_notMem hlt
    have hlost := ht.lost hlt
    rw [hnext] at hsize₁ hoff₁ hnew hlost
    have hne : first ≠ some i := fun h => hnew (hfirst i h)
    have hreg := registry_connect net i p₁
    have hlive₂ := live_connect net i p₁
    rw [searchFrom, hn] at htail ⊢
    rcases hc : p₁.connect net i with ⟨text | link, p₂⟩ <;> rw [hc] at hreg hlive₂ <;>
      simp only [hc, if_neg hne] at htail ⊢
    · have hp' : (p₂.markOffline net i).2.registry =
          (p₁.registry.markOffline true (net.now p₂.net) i).2 := by
        rw [← hreg]
        rfl
      have hsize' : (p₂.markOffline net i).2.registry.size = p.registry.size := by
        rw [hp', Registry.size_eq_of_rotation (p₁.registry.rotation_markOffline true _ i), hsize₁,
          hsize]
      refine Searched.cons (ih (hp' ▸ hlost _) ?_ ?_ ?_ ?_) hsize' (hlive₂.trans hlive)
      · rw [hsize', List.length_append, List.length_singleton]
        omega
      · intro j hj
        cases first with
        | none => exact List.mem_append_right _ (List.mem_singleton.2 (Option.some.inj hj).symm)
        | some k => exact List.mem_append_left _ (hfirst j hj)
      · exact fun _ q hq => htail q (List.mem_of_mem_head? hq)
      · exact fun q hq => htail q (List.mem_of_mem_tail hq)
    · obtain ⟨c, p', hreg', hnode, hon, hother⟩ := register_spec net link i p₂
      rw [hreg']
      refine .found [] (by simp) rfl hnode ?_ ?_ (by rw [hnode]; exact hon)
      · simpa using ht.nodup.concat hnew
      · intro j hj
        have hj : j ∈ tried := by simpa using hj
        rw [hother j fun hji => hnew (hji ▸ hj), hreg, hoff₁]
        exact ht.offline j hj

end Pool

/-! ## Registries that arise -/

/-- The registries that any run leads to: of choices, of endpoints lost and found, of probes and
their ends, and of connections that are opened. -/
inductive Registry.Reachable : Registry → Prop
  | start {addresses : List String} {health : HealthSettings} {r : Registry} :
    ofEndpoints addresses health = .ok r → Reachable r
  | event {r : Registry} (e : Event) : Reachable r → Reachable (r.after e)
  | opening {ω : Type} (net : Network ω) {p : Pool ω} :
    Reachable p.registry → Reachable (p.openNew net).2.registry

/-- What events keep, opening a connection keeps. -/
theorem Pool.openFrom_keeps {P : Registry → Prop} (hP : ∀ r e, P r → P (r.after e))
    (net : Network ω) (left attempts : Nat) (first : Option Nat) (lastError : String) {p : Pool ω}
    (hp : P p.registry) : P (openFrom net left attempts first lastError p).2.registry := by
  induction left generalizing attempts first lastError p with
  | zero => exact hp
  | succ left ih =>
    have hp₁ : P (p.nextEndpoint net).2.registry :=
      hP _ .choice (catchUp_keeps (fun r e _ => hP r e) net hp)
    rw [openFrom]
    rcases hn : p.nextEndpoint net with ⟨i, p₁⟩
    rw [hn] at hp₁
    have hp₂ : P (p₁.connect net i).2.registry := registry_connect net i p₁ ▸ hp₁
    simp only
    split
    · exact hp₁
    · rcases hc : p₁.connect net i with ⟨text | link, p₂⟩ <;> rw [hc] at hp₂
      · exact ih _ _ _ (hP _ (.lost true (net.now p₂.net) i) hp₂)
      · by_cases hoff : p₂.registry.isOffline i = true
        · simp only [if_pos hoff]
          exact hP _ (.found i) hp₂
        · simp only [if_neg hoff]
          exact hp₂

/-- **Every registry that arises is sound.** -/
theorem Registry.Reachable.sound {r : Registry} (h : r.Reachable) : r.Sound := by
  induction h with
  | start h => exact sound_ofEndpoints h
  | event e _ ih => exact ih.after e
  | opening net _ ih => exact Pool.openFrom_keeps (fun _ e hr => hr.after e) net _ _ _ _ ih

/-! ## Failover -/

/-- **Failover is complete.** Let `A` be the endpoints that accept connections while one is opened,
and let no probe bring an endpoint back meanwhile. Then no endpoint is tried twice. If there are any
in `A` the connection is to one of them, which is then online, and all that were tried before it are
offline; otherwise all endpoints are tried and are offline, and no more connections are open than
before. -/
theorem Pool.failover_complete (net : Network ω) (p : Pool ω) (A : Finset Nat)
    (hr : p.registry.Reachable) (hA : ∀ i ∈ A, i < p.registry.size)
    (haccept : ∀ a ∈ (p.search net).attempts, a.reached = true ↔ a.place ∈ A)
    (hcalm : ∀ q ∈ (p.search net).choices.tail, q.Calm net) :
    (p.search net).result = p.openNew net ∧
    ((p.search net).attempts.map Attempt.place).Nodup ∧
    (A.Nonempty → ∃ c p' before, p.openNew net = (.ok c, p') ∧ c.node ∈ A ∧
      p'.registry.isOffline c.node = false ∧
      (p.search net).attempts.map Attempt.place = before ++ [c.node] ∧
      ∀ i ∈ before, p'.registry.isOffline i = true) ∧
    (A = ∅ → ∃ text p',
      p.openNew net = (.error (.noAvailableEndpoint p.registry.size text), p') ∧
      ((p.search net).attempts.map Attempt.place).Perm (List.range p.registry.size) ∧
      (∀ i < p.registry.size, p'.registry.isOffline i = true) ∧ p'.live = p.live) := by
  have hsearch : Searched p [] 0 (p.search net) :=
    searched_searchFrom (.nil hr.sound) (Nat.add_zero _) (by simp) (fun h => absurd rfl h) hcalm
  have hresult := p.result_search net
  refine ⟨hresult, ?_⟩
  rw [← hresult]
  generalize p.search net = s at haccept hsearch
  cases hsearch with
  | @found failed _ last c p' _ hreached hnode hnd hoff hon =>
    rw [List.nil_append] at hnd hoff
    have hmem : last.place ∈ A := (haccept last (by simp)).1 hreached
    refine ⟨hnd, fun _ => ?_, fun hnone => ?_⟩
    · exact ⟨c, p', failed.map Attempt.place, rfl, hnode ▸ hmem, hon, by simp [hnode], hoff⟩
    · rw [hnone] at hmem
      exact absurd hmem (Finset.notMem_empty _)
  | @exhausted failed _ text p' hfailed hperm hoff hlive =>
    rw [List.nil_append] at hperm hoff
    refine ⟨hperm.nodup_iff.2 List.nodup_range, fun ⟨i, hi⟩ => ?_, fun _ => ?_⟩
    · -- an endpoint of `A` was tried, so it was reached
      obtain ⟨a, ha, rfl⟩ := List.mem_map.1 (hperm.mem_iff.2 (List.mem_range.2 (hA i hi)))
      have := (haccept a ha).2 hi
      rw [hfailed a ha] at this
      cases this
    · have hlen : failed.length = p.registry.size := by simpa using hperm.length_eq
      refine ⟨text, p', by rw [Nat.zero_add, hlen], hperm, fun i hi => ?_, hlive⟩
      exact hoff i (hperm.mem_iff.2 (List.mem_range.2 hi))

/-! ## A search that falls back on an endpoint that is offline -/

/-- A network on which one address accepts connections. -/
def Network.only (address : String) : Network Unit :=
  { Network.unreachable with
    dial addr _ :=
      (if addr = address then .connected 0 else .failed ⟨.connectionRefused, "refused"⟩, ()) }

/-- A pool of three endpoints of which the last was lost. -/
def Pool.lostThird : Pool Unit := .empty {} false (Registry.untried.after (.lost true 0 2)) ()

/-- At the start of the clock no probe is due. -/
theorem Pool.calm_of_now {p : Pool ω} (h : net.now p.net = 0) : p.Calm net := by
  intro i
  refine List.foldlRecOn (motive := fun r : Registry => r.isOffline i = p.registry.isOffline i)
    p.registry.probes _ rfl fun r hr q _ => ?_
  rw [h, Registry.runProbe, ProbePhase.advance, dif_neg (Nat.not_lt_zero _)]
  exact hr

theorem Pool.reachable_lostThird : Pool.lostThird.registry.Reachable :=
  .event (.lost true 0 2) (.start Registry.ofEndpoints_untried)

/-- Where only the third of three endpoints accepts connections, and it was lost, the search tries
the others first and then comes back to it. Where none does it tries them all. -/
theorem Pool.failover_lostThird :
    (∃ c p', Pool.lostThird.openNew (.only "c:3") = (.ok c, p') ∧ c.node = 2 ∧
      (Pool.lostThird.search (.only "c:3")).attempts.map Attempt.place = [0, 1, 2] ∧
      p'.registry.isOffline 0 = true ∧ p'.registry.isOffline 2 = false) ∧
    ∃ text p', Pool.lostThird.openNew .unreachable = (.error (.noAvailableEndpoint 3 text), p') ∧
      ∀ i < 3, p'.registry.isOffline i = true := by
  constructor
  · obtain ⟨-, -, hfound, -⟩ := Pool.failover_complete (.only "c:3") Pool.lostThird {2}
      Pool.reachable_lostThird (by decide) (by decide +kernel) fun q _ => Pool.calm_of_now rfl
    obtain ⟨c, p', before, hopen, hc, hon, hat, hoff⟩ := hfound ⟨2, by decide⟩
    obtain hc : c.node = 2 := Finset.mem_singleton.1 hc
    have hplaces : (Pool.lostThird.search (.only "c:3")).attempts.map Attempt.place =
        [0, 1] ++ [2] := by decide +kernel
    rw [hplaces, hc] at hat
    obtain ⟨rfl, -⟩ := List.append_inj' hat rfl
    exact ⟨c, p', hopen, hc, hplaces, hoff 0 (by simp), hc ▸ hon⟩
  · obtain ⟨-, -, -, hnone⟩ := Pool.failover_complete .unreachable Pool.lostThird ∅
      Pool.reachable_lostThird (by decide) (by decide +kernel) fun q _ => Pool.calm_of_now rfl
    obtain ⟨text, p', hopen, -, hoff, -⟩ := hnone rfl
    exact ⟨text, p', hopen, hoff⟩

end TagStore
