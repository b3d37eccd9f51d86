import TagStore.Bytes

/-!
# Base64

Groups of three bytes as four symbols of the standard alphabet; a last group of one or two bytes
is padded with the sign `=`. Reading accepts exactly what writing produces: the padding must be
there, and the bits that the last symbol does not need must be zero.
-/

namespace TagStore.Base64

/-- The padding sign. -/
def pad : UInt8 := 61

/-- The symbol of a number below 64. -/
def symbol (n : Nat) : UInt8 :=
  if n < 26 then UInt8.ofNat (65 + n)
  else if n < 52 then UInt8.ofNat (71 + n)
  else if n < 62 then UInt8.ofNat (n - 4)
  else if n = 62 then 43
  else 47

/-- The number below 64 that a symbol stands for. -/
def value? (c : UInt8) : Option Nat :=
  let n := c.toNat
  if 65 ≤ n ∧ n ≤ 90 then some (n - 65)
  else if 97 ≤ n ∧ n ≤ 122 then some (n - 71)
  else if 48 ≤ n ∧ n ≤ 57 then some (n + 4)
  else if n = 43 then some 62
  else if n = 47 then some 63
  else none

/-- The four symbols of three bytes. -/
def group (a b c : UInt8) : Bytes :=
  let n := a.toNat * 65536 + b.toNat * 256 + c.toNat
  [symbol (n / 262144), symbol (n / 4096 % 64), symbol (n / 64 % 64), symbol (n % 64)]

/-- The symbols of a run of bytes; `acc` holds those before it, the last first. -/
def encodeTo (acc : Bytes) : Bytes → Bytes
  | [] => acc.reverse
  | [a] =>
    let n := a.toNat * 16
    (pad :: pad :: symbol (n % 64) :: symbol (n / 64) :: acc).reverse
  | [a, b] =>
    let n := a.toNat * 1024 + b.toNat * 4
    (pad :: symbol (n % 64) :: symbol (n / 64 % 64) :: symbol (n / 4096) :: acc).reverse
  | a :: b :: c :: r => encodeTo ((group a b c).reverse ++ acc) r

/-- The symbols of a run of bytes. -/
def encode (b : Bytes) : Bytes := encodeTo [] b

/-- The bytes of a run of symbols; `acc` holds those before it, the last first. -/
def decodeTo (acc : Bytes) : Bytes → Option Bytes
  | [] => some acc.reverse
  | w :: x :: y :: z :: r =>
    match value? w, value? x with
    | some i, some j =>
      match value? y, value? z with
      | some k, some l =>
        let n := i * 262144 + j * 4096 + k * 64 + l
        decodeTo (UInt8.ofNat n :: UInt8.ofNat (n / 256) :: UInt8.ofNat (n / 65536) :: acc) r
      | some k, none =>
        if z = pad ∧ r = [] ∧ k % 4 = 0 then
          let n := i * 1024 + j * 16 + k / 4
          some (UInt8.ofNat n :: UInt8.ofNat (n / 256) :: acc).reverse
        else none
      | none, _ =>
        if y = pad ∧ z = pad ∧ r = [] ∧ j % 16 = 0 then
          some (UInt8.ofNat (i * 4 + j / 16) :: acc).reverse
        else none
    | _, _ => none
  | _ => none

/-- The bytes that a run of symbols writes. -/
def decode? (b : Bytes) : Option Bytes := decodeTo [] b

/-- The length of the written form: four symbols for each group begun. -/
def encodedLength (n : Nat) : Nat := (n + 2) / 3 * 4

/-- Every number below 64 reads back from its symbol. -/
theorem value?_symbol : ∀ n < 64, value? (symbol n) = some n := by decide

theorem length_encodeTo (acc b : Bytes) :
    (encodeTo acc b).length = acc.length + encodedLength b.length := by
  fun_induction encodeTo acc b with
  | case1 => simp [encodedLength]
  | case2 => simp [encodedLength]
  | case3 => simp [encodedLength]
  | case4 acc a b c r ih => rw [ih]; simp [group, encodedLength]; omega

/-- The length of the written form depends on the number of bytes alone. -/
theorem length_encode (b : Bytes) : (encode b).length = encodedLength b.length := by
  simp [encode, length_encodeTo]

end TagStore.Base64
