import TagStore.Compression.EnginePool

/-!
# Pooled engines are fresh, and only so many are idle

A job works with its engine, asks how many engines are idle and runs further jobs on the same pool,
and what it does next may depend on all that it has seen (`EnginePool.Job`). A run records which
engine each job is handed and how many engines are idle whenever one was taken or given back
(`EnginePool.Moment`).

One lemma says what a stretch of a run does to the pool (`EnginePool.Stretch`), with a case for each
thing that a job can do (`EnginePool.Job.stretch_body`). What a whole run shows follows from it for
any run after any others (`EnginePool.engines_fresh_and_bounded`).
-/

namespace TagStore

namespace EnginePool

/-! ## Runs that are recorded -/

/-- A job: it ends, works with its engine, asks how many engines are idle, or runs another job on
the pool that its own engine is from. -/
inductive Job (α : Type)
  | done (result : α)
  | work (f : Engine → Engine) (next : Engine → Job α)
  | look (next : Nat → Job α)
  | nest (inner : Job α) (next : α → Job α)

/-- What a run records: a job of some level is handed an engine, or it has ended; either way with
the number of engines that are idle then. -/
inductive Moment
  | entered (level : Nat) (engine : Engine) (idle : Nat)
  | left (level : Nat) (idle : Nat)
deriving DecidableEq

namespace Moment

/-- The level of the job that a moment is about. -/
def level : Moment → Nat
  | entered level _ _ => level
  | left level _ => level

/-- How many engines are idle at a moment. -/
def idle : Moment → Nat
  | entered _ _ idle => idle
  | left _ idle => idle

/-- The number of idle engines that a job of level `k` finds, if one starts. -/
def found? (k : Nat) : Moment → Option Nat
  | entered level _ idle => if level = k then some idle else none
  | left _ _ => none

end Moment

/-- How deep the jobs of a record are nested. -/
def deepest (seen : List Moment) : Nat := seen.foldr (fun m d => max m.level d) 0

/-- The number of idle engines that the first job of level `k` finds. -/
def found? (k : Nat) (seen : List Moment) : Option Nat := seen.findSome? (Moment.found? k)

variable {α : Type}

/-- Runs a job of the given level as `withEngine` does, and records its start and its end. -/
def watched (level : Nat) (job : Engine → EnginePool → (List Moment × α) × Engine × EnginePool)
    (p : EnginePool) : (List Moment × α) × EnginePool :=
  let ((seen, a), p) := p.withEngine fun e p =>
    let ((seen, a), e', q) := job e p
    ((.entered level e p.idleCount :: seen, a), e', q)
  ((seen ++ [.left level p.idleCount], a), p)

/-- What a job of the given level does with its engine and its pool. -/
def Job.body : Job α → (level : Nat) → Engine → EnginePool → (List Moment × α) × Engine × EnginePool
  | .done a, _, e, p => (([], a), e, p)
  | .work f next, level, e, p => (next (f e)).body level (f e) p
  | .look next, level, e, p => (next p.idleCount).body level e p
  | .nest inner next, level, e, p =>
    let ((seen, a), p) := p.watched (level + 1) (inner.body (level + 1))
    let ((rest, b), e, p) := (next a).body level e p
    ((seen ++ rest, b), e, p)

/-- Runs a job that no other runs. -/
def run (p : EnginePool) (job : Job α) : (List Moment × α) × EnginePool := p.watched 1 (job.body 1)

/-- The pool after jobs have been run one after the other. -/
def afterRuns (p : EnginePool) (jobs : List (Job α)) : EnginePool :=
  jobs.foldl (fun p job => (p.run job).2) p

/-! ## Records put together -/

section Records

variable {k : Nat} {s t : List Moment} {m : Moment}

@[simp]
theorem deepest_nil : deepest [] = 0 := rfl

@[simp]
theorem deepest_cons : deepest (m :: s) = max m.level (deepest s) := rfl

@[simp]
theorem deepest_append : deepest (s ++ t) = max (deepest s) (deepest t) := by
  induction s with
  | nil => simp
  | cons m s ih => simp [ih, Nat.max_assoc]

@[simp]
theorem found?_nil : found? k [] = none := rfl

@[simp]
theorem found?_cons : found? k (m :: s) = (m.found? k).or (found? k s) := by
  rw [found?, List.findSome?_cons]
  cases m.found? k <;> rfl

@[simp]
theorem found?_append : found? k (s ++ t) = (found? k s).or (found? k t) := List.findSome?_append

end Records

/-! ## Pools that are kept up -/

section Kept

variable {T : Type} [Poolable T] {bound : Nat} {p : EnginePool T}

/-- A pool that keeps so many engines has no more idle, and all of them are as good as new. -/
structure Kept (bound : Nat) (p : EnginePool T) : Prop where
  maxIdle_eq : p.maxIdle = bound
  fresh : ∀ e ∈ p.idle, e = Poolable.create
  le : p.idleCount ≤ bound

theorem kept_empty (bound : Nat) : (empty bound : EnginePool T).Kept bound :=
  ⟨rfl, by simp [empty], Nat.zero_le _⟩

/-- **An engine that is taken is fresh.** -/
theorem Kept.take (h : p.Kept bound) :
    p.take.1 = Poolable.create ∧ p.take.2.Kept bound ∧ p.take.2.idleCount = p.idleCount - 1 := by
  obtain ⟨maxIdle, idle⟩ := p
  cases idle with
  | nil => exact ⟨rfl, h, rfl⟩
  | cons e es =>
    have hle : es.length + 1 ≤ bound := h.le
    exact ⟨h.fresh e List.mem_cons_self,
      ⟨h.maxIdle_eq, fun e he => h.fresh e (List.mem_cons_of_mem _ he), Nat.le_of_succ_le hle⟩, rfl⟩

/-- Whatever became of an engine, giving it back leaves one more fresh one, if there is room. -/
theorem Kept.giveBack (h : p.Kept bound) (e : T) :
    (p.giveBack e).Kept bound ∧ (p.giveBack e).idleCount = min bound (p.idleCount + 1) := by
  have hmax := h.maxIdle_eq
  have hle := h.le
  unfold EnginePool.giveBack idleCount at *
  split
  · refine ⟨⟨hmax, fun e' he => ?_, ?_⟩, ?_⟩
    · rcases List.mem_append.1 he with he | he
      · exact h.fresh e' he
      · rw [List.mem_singleton.1 he, Poolable.reset_eq]
    · simp [idleCount]; omega
    · simp; omega
  · exact ⟨h, by omega⟩

/-- A job that leaves the pool alone comes to what it comes to with a new engine, and whatever it
does to its engine, the pool is kept up. -/
theorem Kept.withEngine (h : p.Kept bound) {α : Type} (f : T → α × T) :
    (p.withEngine fun e q => ((f e).1, (f e).2, q)).1 = (f Poolable.create).1 ∧
      (p.withEngine fun e q => ((f e).1, (f e).2, q)).2.Kept bound := by
  obtain ⟨he, hq, -⟩ := h.take
  refine ⟨?_, (hq.giveBack _).1⟩
  rw [← he]
  rfl

end Kept

/-! ## What a stretch of a run does -/

variable {bound level k : Nat} {p q r : EnginePool} {s t : List Moment}

/-- What a job of the given level does, or a stretch of it, from one pool to another. The first job
that starts at a deeper level finds all engines idle that were, less those that the levels between
took. In the end as many are idle as were or as were needed, if so many are kept. -/
structure Stretch (bound level : Nat) (p : EnginePool) (seen : List Moment) (q : EnginePool) :
    Prop where
  kept : q.Kept bound
  fresh : ∀ l e c, .entered l e c ∈ seen → e = .fresh
  idle_le : ∀ m ∈ seen, m.idle ≤ bound
  found : ∀ k, level < k →
    found? k seen = if k ≤ deepest seen then some (p.idleCount - (k - level)) else none
  idleCount_eq : q.idleCount = min bound (max p.idleCount (deepest seen - level))

namespace Stretch

theorem nil (h : p.Kept bound) : Stretch bound level p [] p where
  kept := h
  fresh := by simp
  idle_le := by simp
  found k hk := by simp; omega
  idleCount_eq := by have := h.le; simp; omega

theorem append (hp : p.Kept bound) (h₁ : Stretch bound level p s q)
    (h₂ : Stretch bound level q t r) : Stretch bound level p (s ++ t) r where
  kept := h₂.kept
  fresh l e c hm := (List.mem_append.1 hm).elim (h₁.fresh l e c) (h₂.fresh l e c)
  idle_le m hm := (List.mem_append.1 hm).elim (h₁.idle_le m) (h₂.idle_le m)
  found k hk := by
    have hle := hp.le
    have hq := h₁.idleCount_eq
    rw [found?_append, h₁.found k hk, h₂.found k hk, deepest_append]
    by_cases h : k ≤ deepest s
    · rw [if_pos h, Option.some_or, if_pos (Nat.le_trans h (Nat.le_max_left ..))]
    · -- no job of the first part needed so many engines as level `k` does
      rw [if_neg h, Option.none_or, show q.idleCount - (k - level) = p.idleCount - (k - level) by
        omega]
      congr 1
      simp only [eq_iff_iff]
      omega
  idleCount_eq := by
    have h₁ := h₁.idleCount_eq
    rw [h₂.idleCount_eq, deepest_append]
    omega

/-- What is done between the start and the end of a job, done with one engine less. -/
theorem between {r' : EnginePool} (hp : p.Kept bound) (hq : q.Kept bound)
    (hcount : q.idleCount = p.idleCount - 1) (h : Stretch bound (level + 1) q s r)
    (hr' : r'.Kept bound) (hidle : r'.idleCount = min bound (r.idleCount + 1)) :
    Stretch bound level p
      (.entered (level + 1) .fresh q.idleCount :: s ++ [.left (level + 1) r'.idleCount]) r' := by
  have hle := hp.le
  have hend := h.idleCount_eq
  have hdeep : deepest (.entered (level + 1) .fresh q.idleCount :: s ++
      [.left (level + 1) r'.idleCount]) = max (level + 1) (deepest s) := by
    simp only [List.cons_append, deepest_cons, deepest_append, deepest_nil, Moment.level]
    omega
  refine ⟨hr', ?_, ?_, ?_, ?_⟩
  · simp only [List.cons_append, List.mem_cons, List.mem_append]
    rintro l e c (he | he | he)
    · cases he
      rfl
    · exact h.fresh l e c he
    · simp at he
  · simp only [List.cons_append, List.mem_cons, List.mem_append]
    rintro m (rfl | hm | rfl | hm)
    · exact hq.le
    · exact h.idle_le m hm
    · exact hr'.le
    · simp at hm
  · intro k hk
    rw [hdeep, List.cons_append, found?_cons]
    by_cases hkl : level + 1 = k
    · rw [Moment.found?, if_pos hkl, Option.some_or, if_pos (by omega)]
      congr 1
      omega
    · -- the first job of a deeper level is run by this one
      have hsub : q.idleCount - (k - (level + 1)) = p.idleCount - (k - level) := by omega
      rw [Moment.found?, if_neg hkl, Option.none_or, found?_append, h.found k (by omega),
        found?_cons, Moment.found?, found?_nil, Option.or_none, Option.or_none, hsub]
      congr 1
      simp only [eq_iff_iff]
      omega
  · rw [hdeep]
    omega

/-- **What a job does, a run of it does at the level above.** -/
theorem watched {job : Engine → EnginePool → (List Moment × α) × Engine × EnginePool}
    (hp : p.Kept bound)
    (hjob : ∀ e q, q.Kept bound → Stretch bound (level + 1) q (job e q).1.1 (job e q).2.2) :
    Stretch bound level p (p.watched (level + 1) job).1.1 (p.watched (level + 1) job).2 := by
  obtain ⟨he, hq, hcount⟩ := hp.take
  have he : p.take.1 = .fresh := he
  have hdone := hjob p.take.1 p.take.2 hq
  obtain ⟨hback, hidle⟩ := hdone.kept.giveBack (job p.take.1 p.take.2).2.1
  have h := between hp hq hcount hdone hback hidle
  rw [← he] at h
  exact h

end Stretch

/-- **Whatever a job does, it does as a stretch.** -/
theorem Job.stretch_body (job : Job α) (level : Nat) (e : Engine) (hp : p.Kept bound) :
    Stretch bound level p (job.body level e p).1.1 (job.body level e p).2.2 := by
  induction job generalizing level e p with
  | done a => exact .nil hp
  | work f next ih => exact ih _ level _ hp
  | look next ih => exact ih _ level e hp
  | nest inner next ihInner ihNext =>
    have h₁ := Stretch.watched hp fun e q hq => ihInner (level + 1) e hq
    exact h₁.append hp (ihNext _ level e h₁.kept)

/-! ## Whole runs -/

/-- A run of a job is a stretch. -/
theorem stretch_run (job : Job α) (hp : p.Kept bound) :
    Stretch bound 0 p (p.run job).1.1 (p.run job).2 :=
  .watched hp fun e _ hq => job.stretch_body 1 e hq

/-- Whatever was run on it, a pool keeps only so many engines, all of them fresh. -/
theorem Kept.afterRuns (hp : p.Kept bound) (jobs : List (Job α)) : (p.afterRuns jobs).Kept bound :=
  List.foldlRecOn jobs _ hp fun _ h job _ => (stretch_run job h).kept

/-- What jobs that are nested in one another find idle, and what they leave. -/
theorem nested_spec (n depth : Nat) (hp : p.Kept bound) :
    (nested n depth p).1.1 =
      (List.range depth).map (fun k => p.idleCount - min p.idleCount (k + 1)) ∧
    (nested n depth p).2.Kept bound ∧
    (nested n depth p).2.idleCount = min bound (max p.idleCount depth) := by
  have hle := hp.le
  induction depth generalizing p with
  | zero => exact ⟨rfl, hp, by simp only [nested]; omega⟩
  | succ depth ih =>
    obtain ⟨-, hq, hcount⟩ := hp.take
    obtain ⟨hfound, hr, hleft⟩ := ih hq hq.le
    obtain ⟨hback, hidle⟩ := hr.giveBack (p.take.1.feed n n)
    refine ⟨?_, hback, ?_⟩
    · calc (nested n (depth + 1) p).1.1
        _ = p.take.2.idleCount :: (nested n depth p.take.2).1.1 := rfl
        _ = (List.range (depth + 1)).map (fun k => p.idleCount - min p.idleCount (k + 1)) := by
          rw [hfound, List.range_succ_eq_map, List.map_cons, List.map_map, hcount]
          congr 1
          · omega
          · refine List.map_congr_left fun k _ => ?_
            simp only [Function.comp_apply]
            omega
    · refine hidle.trans ?_
      omega

/-- **Pooled engines are fresh, and only so many are idle.** Take a pool after any jobs were run on
it, and one job more. Every engine that is handed out has worked on nothing, and never are more
engines idle than may be. The first job of level `k` finds so many engines idle as there were before
the run, less `k`. After the run as many are idle as before it, or as it was deep, if so many may
be. -/
theorem engines_fresh_and_bounded {maxIdle : Nat} {earlier : List (Job α)} {job : Job α}
    {seen : List Moment} {a : α} (hp : (empty maxIdle).afterRuns earlier = p)
    (hrun : p.run job = ((seen, a), q)) :
    (∀ level e idle, .entered level e idle ∈ seen → e.totalIn = 0 ∧ e.totalOut = 0) ∧
    (p.idleCount ≤ maxIdle ∧ (∀ m ∈ seen, m.idle ≤ maxIdle) ∧ q.idleCount ≤ maxIdle) ∧
    (∀ k, 1 ≤ k → k ≤ deepest seen →
      found? k seen = some (p.idleCount - min p.idleCount k)) ∧
    q.idleCount = min maxIdle (max p.idleCount (deepest seen)) ∧
    ∀ n depth,
      (nested n depth p).1.1 =
        (List.range depth).map (fun k => p.idleCount - min p.idleCount (k + 1)) ∧
      (nested n depth p).2.idleCount = min maxIdle (max p.idleCount depth) := by
  have hkept : p.Kept maxIdle := hp ▸ (kept_empty maxIdle).afterRuns earlier
  have h := stretch_run job hkept
  rw [hrun] at h
  refine ⟨fun level e idle hm => ?_, ⟨hkept.le, h.idle_le, h.kept.le⟩, fun k hk hdeep => ?_,
    h.idleCount_eq, fun n depth => ?_⟩
  · rw [h.fresh level e idle hm]
    exact ⟨rfl, rfl⟩
  · rw [h.found k hk, if_pos hdeep]
    congr 1
    omega
  · obtain ⟨hfound, -, hleft⟩ := nested_spec n depth hkept
    exact ⟨hfound, hleft⟩

/-- A job that feeds its engine, and then runs a job that runs one itself, and another. -/
def Job.twice : Job Unit :=
  .work (·.feed 5 3) fun _ => .nest (.nest (.work (·.feed 7 7) fun _ => .done ()) .done)
    fun _ => .nest (.done ()) .done

/-- Two engines are kept of the three that a first run needs. Both are fresh for the second run,
of which the jobs of the first two levels find one and none idle. -/
theorem engines_fresh_and_bounded_twice :
    ∃ seen q, ((empty 2).run Job.twice).2.run Job.twice = ((seen, ()), q) ∧
      .entered 1 ⟨0, 0⟩ 1 ∈ seen ∧ found? 2 seen = some 0 ∧ found? 3 seen = some 0 ∧
      q.idleCount = 2 := by
  obtain ⟨_, _, hfound, hleft, -⟩ := engines_fresh_and_bounded
    (show (empty 2).afterRuns [Job.twice] = ((empty 2).run Job.twice).2 from rfl)
    (show ((empty 2).run Job.twice).2.run Job.twice = _ from rfl)
  exact ⟨_, _, rfl, by decide, hfound 2 (by decide) (by decide), hfound 3 (by decide) (by decide),
    hleft⟩

end EnginePool

end TagStore
