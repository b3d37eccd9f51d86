/-!
# Engine pools

Engines are costly to make and are therefore kept for reuse. A kind of engine can be pooled if there
is a way to make one and a way to reset one that has been used (`Poolable`). `withEngine` takes the
first idle engine, or makes one, runs a job with it, resets it and puts it back at the end of the
queue unless the queue is full. A job may run further jobs on the same pool.
-/

namespace TagStore

/-- Engines that can be pooled. One that is reset is as good as one that has just been made. -/
class Poolable (T : Type) where
  create : T
  reset : T → T
  reset_eq : ∀ e, reset e = create

/-- What an engine remembers of the streams it has worked on since its last reset. -/
structure Engine where
  totalIn : Nat
  totalOut : Nat
deriving Repr, DecidableEq

namespace Engine

/-- An engine that has not worked yet. -/
def fresh : Engine := ⟨0, 0⟩

/-- Forgets the stream worked on. -/
def reset (_ : Engine) : Engine := fresh

/-- Works on `n` bytes, producing `m`. -/
def feed (e : Engine) (n m : Nat) : Engine := ⟨e.totalIn + n, e.totalOut + m⟩

instance : Poolable Engine where
  create := fresh
  reset := reset
  reset_eq _ := rfl

end Engine

/-- Idle engines, the one to be taken next first. -/
structure EnginePool (T : Type := Engine) where
  maxIdle : Nat
  idle : List T
deriving Repr, DecidableEq

namespace EnginePool

variable {T : Type}

/-- How many idle engines a pool keeps if it is not told otherwise. -/
def defaultMaxIdle : Nat := 10

/-- A pool without idle engines. -/
def empty (maxIdle : Nat) : EnginePool T := ⟨maxIdle, []⟩

/-- The number of idle engines. -/
def idleCount (p : EnginePool T) : Nat := p.idle.length

variable [Poolable T]

/-- Takes the first idle engine, or makes one. -/
def take (p : EnginePool T) : T × EnginePool T :=
  match p.idle with
  | [] => (Poolable.create, p)
  | e :: r => (e, ⟨p.maxIdle, r⟩)

/-- Resets an engine and keeps it unless enough are idle. -/
def giveBack (p : EnginePool T) (e : T) : EnginePool T :=
  if p.idle.length < p.maxIdle then ⟨p.maxIdle, p.idle ++ [Poolable.reset e]⟩ else p

/-- Runs a job with an engine. The job gives back its result, the engine as it left it, and the
pool as it left it. -/
def withEngine {α : Type} (p : EnginePool T) (job : T → EnginePool T → α × T × EnginePool T) :
    α × EnginePool T :=
  let (e, p) := p.take
  let (a, e, p) := job e p
  (a, p.giveBack e)

/-- Runs jobs nested `depth` deep, each of which feeds its engine `n` bytes. Gives the idle counts
seen on entering each level, outermost first, and those seen after each level, innermost first. -/
def nested (n : Nat) : (depth : Nat) → EnginePool → (List Nat × List Nat) × EnginePool
  | 0, p => (([], []), p)
  | depth + 1, p =>
    let ((entered, left), p) := p.withEngine fun e p =>
      let seen := p.idleCount
      let ((entered, left), p) := nested n depth p
      ((seen :: entered, left), e.feed n n, p)
    ((entered, left ++ [p.idleCount]), p)

end EnginePool

end TagStore
