import TagStore.Text.Shortest

/-!
# Numbers of JSON

A whole number that fits in 64 bits, signed or unsigned, keeps its value; every other number is a
binary floating-point one. A text of digits is read in two steps: at most as many digits as fit in
64 bits make up the significand, and the significand is then scaled by the power of ten in one
multiplication or division. Negative zero is a floating-point number.
-/

namespace TagStore.Json

/-- A number: `whole n` is `n`, `negative n` is `-n` for a positive `n`. -/
inductive Number
  | whole (n : Nat)
  | negative (n : Nat)
  | real (x : Float)
deriving Repr, BEq, Inhabited

namespace Number

/-- The digits of a number as written. -/
structure Written where
  negative : Bool
  whole : List Nat
  decimals : List Nat
  exponent : Option (Bool × List Nat)
deriving Repr, DecidableEq

/-- The greatest significand. -/
def maxSignificand : Nat := 18446744073709551615

/-- Appends digits to a number as long as the result is at most `limit`; gives also the digits
left over. -/
def accumulate (limit n : Nat) : List Nat → Nat × List Nat
  | [] => (n, [])
  | d :: ds => if n * 10 + d ≤ limit then accumulate limit (n * 10 + d) ds else (n, d :: ds)

/-- `10 ^ n` for `n` up to 308. -/
def power (n : Nat) : Float := Float.ofScientific 1 false n

/-- `x * 10 ^ exponent`, in steps of at most 308 powers, unless it is too great. -/
def scaled (fuel : Nat) (x : Float) (exponent : Int) : Option Float :=
  if exponent.natAbs ≤ 308 then
    if 0 ≤ exponent then
      let y := x * power exponent.toNat
      if y.isInf then none else some y
    else some (x / power exponent.natAbs)
  else if x == 0 then some x
  else if 0 ≤ exponent then none
  else match fuel with
    | 0 => some x
    | fuel + 1 => scaled fuel (x / power 308) (exponent + 308)

/-- The floating-point number of a significand and a power of ten. -/
def real? (negative : Bool) (significand : Nat) (exponent : Int) : Option Number :=
  (scaled (exponent.natAbs / 308) (UInt64.ofNat significand).toFloat exponent).map fun x =>
    .real (if negative then -x else x)

/-- The number of a significand and a power of ten that an exponent as written still adds to. -/
def withExponent (negative : Bool) (significand : Nat) (start : Int) :
    Option (Bool × List Nat) → Option Number
  | none => real? negative significand start
  | some (down, ds) =>
    match accumulate 2147483647 0 ds with
    | (e, []) => real? negative significand (if down then start - e else start + e)
    | (_, _ :: _) =>
      if significand ≠ 0 ∧ !down then none
      else some (.real (if negative then -0.0 else 0.0))

/-- A whole number without point and exponent. -/
def ofWhole (negative : Bool) (n : Nat) : Number :=
  if !negative then .whole n
  else if 0 < n ∧ n ≤ 9223372036854775808 then .negative n
  else .real (-(UInt64.ofNat n).toFloat)

/-- The value of a number as written, unless it is too great. -/
def ofWritten? (w : Written) : Option Number :=
  match accumulate maxSignificand 0 w.whole with
  | (n, rest) =>
    match rest, w.decimals, w.exponent with
    | [], [], none => some (ofWhole w.negative n)
    | _, ds, e =>
      let (m, left) := accumulate maxSignificand n ds
      let places : Int := (ds.length - left.length : Nat)
      withExponent w.negative m ((rest.length : Int) - places) e

/-- The layout of floating-point numbers. -/
def layout : Text.DecimalLayout := ⟨16, 4⟩

/-- The bit above the 52 bits of a mantissa. -/
def hiddenBit : Nat := 4503599627370496

/-- The bit of the sign, above those of the exponent and the mantissa. -/
def signBit : Nat := 9223372036854775808

/-- The positive binary fraction with the given bits. -/
def fractionOfBits (bits : Nat) : Text.BinaryFraction :=
  let e : Nat := bits / hiddenBit % 2048
  let f : Nat := bits % hiddenBit
  if e = 0 then ⟨f, -1074, false⟩ else ⟨f + hiddenBit, (e : Int) - 1075, f == 0 && 1 < e⟩

/-- The text of a floating-point number. -/
def realText (x : Float) : String :=
  let bits := x.toBits.toNat
  let sign := if bits / signBit = 1 then "-" else ""
  let size := bits % signBit
  sign ++ if size = 0 then "0.0" else layout.render (fractionOfBits size).shortest

/-- The text of a number. -/
def text : Number → String
  | whole n => toString n
  | negative n => "-" ++ toString n
  | real x => realText x

end Number

end TagStore.Json
