import TagStore.Config

/-!
# Probes of lost endpoints

An endpoint that was lost is tried again at once and then at every tick of a clock of its own,
until it accepts a connection. It must then stay away from use for a while before it is trusted. A
tick that comes while an attempt is still under way waits for its end, and if it waited long the
clock starts anew from there.
-/

namespace TagStore

/-- What an attempt to connect to an address meets. -/
inductive Reach
  | accepts
  | refuses
  | silent
deriving Repr, DecidableEq

/-- How probes are run. Their clock ticks. -/
structure ProbeSchedule where
  settings : HealthSettings
  interval_pos : 0 < settings.recheckInterval.nanos

/-- Where a probe stands: waiting for a tick, having nothing else to do from `ready` on; or waiting
for the moment when its endpoint is trusted again. -/
inductive ProbePhase
  | waiting (tick ready : Nat)
  | settling (release : Nat)
deriving Repr, DecidableEq

namespace ProbePhase

/-- A probe at its start, whose first tick is at once. -/
def start (now : Nat) : ProbePhase := .waiting now now

/-- When something happens next. -/
def due : ProbePhase → Nat
  | waiting tick ready => max tick ready
  | settling t => t

/-- How late a tick may be used without setting the clock anew. -/
def lateness : Duration := .ofMillis 5

/-- The tick after one that was used at a moment. -/
def nextTick (s : ProbeSchedule) (tick used : Nat) : Nat :=
  (if tick + lateness.nanos < used then used else tick) + s.settings.recheckInterval.nanos

/-- What a probe does when something is due; a probe that has come to its end is no more. -/
def step (s : ProbeSchedule) (reach : Reach) : ProbePhase → Option ProbePhase
  | settling _ => none
  | waiting tick ready =>
    let used := max tick ready
    match reach with
    | .accepts => some (settling (used + s.settings.settleDelay.nanos))
    | .refuses => some (waiting (nextTick s tick used) used)
    | .silent => some (waiting (nextTick s tick used) (used + s.settings.probeTimeout.nanos))

/-- Bounds the steps of a probe before `limit`. -/
def stepsBefore (limit : Nat) : ProbePhase → Nat
  | waiting tick _ => limit - tick + 1
  | settling _ => 0

/-- Lets everything happen that is due before `limit`. -/
def advance (s : ProbeSchedule) (reach : Reach) (limit : Nat) (p : ProbePhase) :
    Option ProbePhase :=
  if _h : p.due < limit then
    match _hp : step s reach p with
    | none => none
    | some q => advance s reach limit q
  else some p
termination_by p.stepsBefore limit
decreasing_by
  have hs := s.interval_pos
  cases p with
  | settling t => simp [step] at _hp
  | waiting tick ready =>
    have hd : tick < limit := Nat.lt_of_le_of_lt (Nat.le_max_left tick ready) _h
    have ht : tick < nextTick s tick (max tick ready) := by
      unfold nextTick
      split <;> omega
    cases reach <;> simp only [step, Option.some.injEq] at _hp <;> subst _hp <;>
      simp only [stepsBefore] <;> omega

end ProbePhase

/-- A probe that runs: its number, the place of its endpoint, and where it stands. -/
structure Probe where
  id : Nat
  node : Nat
  phase : ProbePhase
deriving Repr, DecidableEq

end TagStore
