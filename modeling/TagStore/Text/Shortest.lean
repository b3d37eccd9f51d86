/-!
# Shortest decimals of a binary fraction

The decimal with the fewest digits that still names a given binary floating-point number: it lies
closer to that number than to any other, and of several with as few digits it is the nearest.
`shortest` finds it by testing, for one digit, two digits and so on, the two neighbours of the
number on the decimal grid of that many digits, in exact arithmetic. `DecimalLayout.render`
then lays out digits and exponent.
-/

namespace TagStore.Text

/-- A positive binary fraction `mantissa * 2 ^ exponent`; `edge` says that the next smaller number
of its format is only half as far away as the next greater one. -/
structure BinaryFraction where
  mantissa : Nat
  exponent : Int
  edge : Bool
deriving Repr, DecidableEq

/-- A decimal `digits * 10 ^ exponent`. -/
structure DecimalFraction where
  digits : Nat
  exponent : Int
deriving Repr, DecidableEq

namespace BinaryFraction

/-- The number in quarters of its last place, as a quotient of natural numbers. -/
def quarters (x : BinaryFraction) (n : Nat) : Nat × Nat :=
  let q := x.exponent - 2
  (n <<< q.toNat, 1 <<< (-q).toNat)

/-- The least `k` with the quotient below `10 ^ k`. -/
def magnitude (num den : Nat) : Int :=
  if den ≤ num then ((Nat.toDigits 10 (num / den)).length : Int)
  else go 400 1
where
  /-- Tries ever smaller powers of ten. -/
  go : Nat → Nat → Int
    | 0, _ => 0
    | fuel + 1, j => if den ≤ num * Nat.pow 10 j then 1 - (j : Int) else go fuel (j + 1)

/-- Whether `d * 10 ^ k` reads back as the number: it lies between the midpoints to the two
neighbours, and may be a midpoint itself if the mantissa is even. -/
def readsBack (x : BinaryFraction) (d : Nat) (k : Int) : Bool :=
  let (low, den) := x.quarters (4 * x.mantissa - if x.edge then 1 else 2)
  let (high, _) := x.quarters (4 * x.mantissa + 2)
  let left := d * den * Nat.pow 10 k.toNat
  let scale := Nat.pow 10 (-k).toNat
  if x.mantissa % 2 = 0 then low * scale ≤ left && left ≤ high * scale
  else low * scale < left && left < high * scale

/-- The nearest number of `n` digits that reads back, if one does. -/
def onGrid (x : BinaryFraction) (top : Int) (n : Nat) : Option DecimalFraction :=
  let k := top - n
  let (num, den) := x.quarters (4 * x.mantissa)
  let num := num * Nat.pow 10 (-k).toNat
  let den := den * Nat.pow 10 k.toNat
  let d := num / den
  match x.readsBack d k, x.readsBack (d + 1) k with
  | true, true =>
    let below := 2 * (num - d * den)
    if below < den || (below == den && d % 2 == 0) then some ⟨d, k⟩ else some ⟨d + 1, k⟩
  | true, false => some ⟨d, k⟩
  | false, true => some ⟨d + 1, k⟩
  | false, false => none

/-- The shortest decimal that reads back. Seventeen digits always suffice. -/
def shortest (x : BinaryFraction) : DecimalFraction :=
  let (num, den) := x.quarters (4 * x.mantissa)
  let top := magnitude num den
  ((List.range 17).findSome? fun n => x.onGrid top (n + 1)).getD ⟨x.mantissa, x.exponent⟩

end BinaryFraction

/-- The digits of a decimal without zeros at its end, and the power of ten they are counted in. -/
def DecimalFraction.trimmed (x : DecimalFraction) : List Char × Int :=
  let ds := Nat.toDigits 10 x.digits
  let kept := (ds.reverse.dropWhile (· == '0')).reverse
  (kept, x.exponent + (ds.length - kept.length : Nat))

/-- Digits laid out with a point and at least one decimal where the point falls within
`wholeDigits` digits or at most `leadingZeros` zeros stand after it, and with a signed
exponent elsewhere. -/
structure DecimalLayout where
  wholeDigits : Int
  leadingZeros : Int
deriving Repr, DecidableEq

/-- An exponent with its sign, behind its letter. -/
def exponentMark (e : Int) : List Char :=
  'e' :: (if 0 ≤ e then '+' else '-') :: Nat.toDigits 10 e.natAbs

/-- The text of a decimal in a layout. -/
def DecimalLayout.render (l : DecimalLayout) (x : DecimalFraction) : String :=
  let (ds, k) := x.trimmed
  let point : Int := k + ds.length
  String.ofList <|
    if 0 ≤ k ∧ point ≤ l.wholeDigits then ds ++ List.replicate k.toNat '0' ++ ['.', '0']
    else if 0 < point ∧ point ≤ l.wholeDigits then
      ds.take point.toNat ++ '.' :: ds.drop point.toNat
    else if -l.leadingZeros ≤ point ∧ point ≤ 0 then
      '0' :: '.' :: (List.replicate (-point).toNat '0' ++ ds)
    else
      let mark := exponentMark (point - 1)
      match ds with
      | [] => mark
      | [d] => d :: mark
      | d :: r => d :: '.' :: (r ++ mark)

end TagStore.Text
