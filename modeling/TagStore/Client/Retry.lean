import TagStore.Client.Error

/-!
# Trying again

After a failure of the connection an operation may be tried once more. Where a second run would
have another outcome, it may be tried again only if the request was never sent.
-/

namespace TagStore

/-- After which failures an operation may be tried again. -/
inductive RetryMode
  | always
  | requestStage
deriving Repr, DecidableEq

namespace RetryMode

/-- Whether a failure in a stage allows another attempt. -/
def permits (m : RetryMode) (stage : Option Stage) : Bool :=
  match m with
  | always => stage.isSome
  | requestStage => stage = some .request

/-- Whether an error allows another attempt. -/
def allows (m : RetryMode) (e : ClientError) : Bool := e.isTransient && m.permits e.stage

/-- Makes an attempt, and a second one if the error of the first allows it. -/
def retryOnce {σ α : Type} (m : RetryMode) (attempt : σ → Except ClientError α × σ) (s : σ) :
    Except ClientError α × σ :=
  match attempt s with
  | (.error e, s) => if m.allows e then attempt s else (.error e, s)
  | (.ok a, s) => (.ok a, s)

end RetryMode

end TagStore
