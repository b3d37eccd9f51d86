/-!
# Durations

Spans of time in whole nanoseconds; a point of time is the number of nanoseconds after the start of
the clock. A duration is shown in the greatest unit of which it holds at least one, with as many
decimals as it needs.
-/

namespace TagStore

/-- A span of time. -/
structure Duration where
  nanos : Nat
deriving Repr, DecidableEq, Inhabited

namespace Duration

/-- A duration of whole seconds. -/
def ofSecs (n : Nat) : Duration := ⟨n * 1000000000⟩

/-- A duration of whole milliseconds. -/
def ofMillis (n : Nat) : Duration := ⟨n * 1000000⟩

/-- A duration of whole microseconds. -/
def ofMicros (n : Nat) : Duration := ⟨n * 1000⟩

/-- The whole seconds of a duration. -/
def secs (d : Duration) : Nat := d.nanos / 1000000000

/-- The nanoseconds beyond the whole seconds. -/
def subNanos (d : Duration) : Nat := d.nanos % 1000000000

/-- Whether a duration has no length. -/
def isZero (d : Duration) : Bool := d.nanos == 0

/-- The decimals of `n` as a part of `10 ^ places`, without trailing zeros. -/
def decimals (places n : Nat) : List Char :=
  let digits := Nat.toDigits 10 n
  let padded := List.replicate (places - digits.length) '0' ++ digits
  (padded.reverse.dropWhile (· == '0')).reverse

/-- `n` counted in units of `10 ^ places`, with the decimals it needs. -/
def inUnit (places n : Nat) : String :=
  let unit := Nat.pow 10 places
  match decimals places (n % unit) with
  | [] => toString (n / unit)
  | ds => toString (n / unit) ++ "." ++ String.ofList ds

/-- The text of a duration. -/
def text (d : Duration) : String :=
  if 1000000000 ≤ d.nanos then inUnit 9 d.nanos ++ "s"
  else if 1000000 ≤ d.nanos then inUnit 6 d.nanos ++ "ms"
  else if 1000 ≤ d.nanos then inUnit 3 d.nanos ++ "µs"
  else inUnit 0 d.nanos ++ "ns"

end Duration

end TagStore
