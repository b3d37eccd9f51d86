import TagStore.Compression.Deflate

/-!
# Inflate

Reading the compressed form: blocks stored as they are, in the fixed prefix code or in a code that
the block describes itself. A prefix code is given by the lengths of its codes; codes of one length
count up in the order of their symbols, and shorter codes come first. Reading stops at the first
fault: the input ends, the input is no compressed form, or the output grows past its limit. What has
been put out by then stays put out.
-/

namespace TagStore.Compression.Inflate

/-- Why reading stops. -/
inductive Fault
  | needsInput
  | invalid
  | overflow
deriving Repr, DecidableEq

/-- A stop at a fault, with what has been put out before it. -/
structure Halt where
  fault : Fault
  out : Array UInt8
deriving Repr, DecidableEq

/-- A part of the input that is read after `out` has been put out. -/
def after {α : Type} (out : Array UInt8) (x : Except Fault α) : Except Halt α :=
  x.mapError (⟨·, out⟩)

@[simp] theorem after_ok {α : Type} (out : Array UInt8) (a : α) :
    after out (.ok a) = .ok a := rfl

/-- A prefix code: how many codes of each length from 1 on there are, and the symbols by length
and, within a length, in their own order. -/
structure PrefixCode where
  counts : List Nat
  symbols : Array Nat
deriving Repr, DecidableEq

/-- The greatest length of a code. -/
def maxCodeLength : Nat := 15

/-- The code with the given code lengths; a symbol of length 0 has no code. -/
def PrefixCode.ofLengths (lengths : List Nat) : PrefixCode :=
  let widths := (List.range maxCodeLength).map (· + 1)
  { counts := widths.map fun w => lengths.count w
    symbols := (widths.flatMap fun w =>
      lengths.zipIdx.filterMap fun (n, symbol) => if n = w then some symbol else none).toArray }

/-- The codes of full length that the counts leave room for or overrun, counted as the codes used
out of `2 ^ 15`. -/
def PrefixCode.filled (c : PrefixCode) : Nat :=
  c.counts.zipIdx.foldl (fun n (count, i) => n + (count <<< (maxCodeLength - 1 - i))) 0

/-- Whether every bit string starts with exactly one code, or the code has at most one symbol and
may leave strings out. -/
def PrefixCode.usable (c : PrefixCode) (single : Bool) : Bool :=
  c.filled == 1 <<< maxCodeLength || (single && c.symbols.size ≤ 1)

/-- The symbol whose code stands at the head of the bits. `value` is the number that the bits read
so far write, `first` the first code of the present length and `index` the place of its symbol. -/
def PrefixCode.readFrom (symbols : Array Nat) (value first index : Nat) :
    List Nat → Bits → Except Fault (Nat × Bits)
  | [], _ => .error .invalid
  | _ :: _, [] => .error .needsInput
  | count :: counts, b :: bits =>
    let value := value + b.toNat
    if value < first + count then
      match symbols[index + (value - first)]? with
      | some s => .ok (s, bits)
      | none => .error .invalid
    else readFrom symbols (2 * value) (2 * (first + count)) (index + count) counts bits

/-- The symbol whose code stands at the head of the bits. -/
def PrefixCode.read (c : PrefixCode) (bits : Bits) : Except Fault (Nat × Bits) :=
  readFrom c.symbols 0 0 0 c.counts bits

/-- The number that the next `n` bits write. -/
def take (n : Nat) (bits : Bits) : Except Fault (Nat × Bits) :=
  let head := bits.take n
  if head.length < n then .error .needsInput else .ok (Bits.toNat head, bits.drop n)

/-- A base and the excess that the extra bits of its symbol write. -/
def takeBased (bases : List (Nat × Nat)) (symbol : Nat) (bits : Bits) :
    Except Fault (Nat × Bits) :=
  match bases[symbol]? with
  | none => .error .invalid
  | some (base, extra) => do
    let (n, bits) ← take extra bits
    .ok (base + n, bits)

/-- Reads the steps of a block up to its end. Each step takes at least one bit, so the number of
bits bounds the steps. A copy that finds too little room fills what there is. -/
def readSteps (limit : Nat) (lengths distances : PrefixCode) (fuel : Nat) (out : Array UInt8)
    (bits : Bits) : Except Halt (Array UInt8 × Bits) :=
  match fuel with
  | 0 => .error ⟨.needsInput, out⟩
  | fuel + 1 => do
    let (symbol, bits) ← after out (lengths.read bits)
    if symbol < 256 then
      if out.size < limit then
        readSteps limit lengths distances fuel (out.push (UInt8.ofNat symbol)) bits
      else .error ⟨.overflow, out⟩
    else if symbol = Deflate.endOfBlock then .ok (out, bits)
    else
      let (n, bits) ← after out (takeBased Deflate.lengthBases (symbol - 257) bits)
      let (symbol, bits) ← after out (distances.read bits)
      let (d, bits) ← after out (takeBased Deflate.distanceBases symbol bits)
      if out.size < d then .error ⟨.invalid, out⟩
      else if limit < out.size + n then .error ⟨.overflow, copyBack d out (limit - out.size)⟩
      else readSteps limit lengths distances fuel (copyBack d out n) bits

/-- The order in which a block gives the lengths of the codes for code lengths. -/
def lengthOrder : List Nat := [16, 17, 18, 0, 8, 7, 9, 6, 10, 5, 11, 4, 12, 3, 13, 2, 14, 1, 15]

/-- Reads `n` numbers of three bits. -/
def readThrees : (n : Nat) → Bits → Except Fault (List Nat × Bits)
  | 0, bits => .ok ([], bits)
  | n + 1, bits => do
    let (x, bits) ← take 3 bits
    let (xs, bits) ← readThrees n bits
    .ok (x :: xs, bits)

/-- Reads code lengths, some of them given as repetitions, until `total` are known; `acc` holds
those known, the last first. -/
def readLengths (total : Nat) (c : PrefixCode) (fuel : Nat) (acc : List Nat) (bits : Bits) :
    Except Fault (List Nat × Bits) :=
  if acc.length = total then .ok (acc.reverse, bits)
  else if total < acc.length then .error .invalid
  else match fuel with
    | 0 => .error .needsInput
    | fuel + 1 => do
      let (symbol, bits) ← c.read bits
      if symbol < 16 then readLengths total c fuel (symbol :: acc) bits
      else if symbol = 16 then
        match acc with
        | [] => .error .invalid
        | last :: _ =>
          let (n, bits) ← take 2 bits
          readLengths total c fuel (List.replicate (3 + n) last ++ acc) bits
      else if symbol = 17 then
        let (n, bits) ← take 3 bits
        readLengths total c fuel (List.replicate (3 + n) 0 ++ acc) bits
      else
        let (n, bits) ← take 7 bits
        readLengths total c fuel (List.replicate (11 + n) 0 ++ acc) bits

/-- The two codes that a block describes at its head. -/
def readCodes (bits : Bits) : Except Fault (PrefixCode × PrefixCode × Bits) := do
  let (a, bits) ← take 5 bits
  let (b, bits) ← take 5 bits
  let (c, bits) ← take 4 bits
  let literals := a + 257
  let distances := b + 1
  if 286 < literals ∨ 30 < distances then .error .invalid
  else
    let (threes, bits) ← readThrees (c + 4) bits
    let given := lengthOrder.zip threes
    let widths := (List.range 19).map fun i => (given.lookup i).getD 0
    let code := PrefixCode.ofLengths widths
    if !code.usable false then .error .invalid
    else
      let total := literals + distances
      let (all, bits) ← readLengths total code total [] bits
      let first := PrefixCode.ofLengths (all.take literals)
      let second := PrefixCode.ofLengths (all.drop literals)
      if first.usable true && second.usable true then .ok (first, second, bits)
      else .error .invalid

/-- Reads the bytes of a stored block, which start at the next whole byte. -/
def readStored (limit : Nat) (out : Array UInt8) (bits : Bits) :
    Except Halt (Array UInt8 × Bits) := do
  let bits := bits.drop (bits.length % 8)
  let (n, bits) ← after out (take 16 bits)
  let (check, bits) ← after out (take 16 bits)
  if n + check ≠ 65535 then .error ⟨.invalid, out⟩
  else
    let bytes := Bits.toBytes (bits.take (8 * n))
    let rest := bits.drop (8 * n)
    if limit < out.size + bytes.length then
      .error ⟨.overflow, out ++ (bytes.take (limit - out.size)).toArray⟩
    else if bytes.length < n then .error ⟨.needsInput, out ++ bytes.toArray⟩
    else .ok (out ++ bytes.toArray, rest)

/-- Reads blocks up to the final one. Each block takes at least three bits. -/
def readBlocks (limit fuel : Nat) (out : Array UInt8) (bits : Bits) :
    Except Halt (Array UInt8 × Bits) :=
  match fuel with
  | 0 => .error ⟨.needsInput, out⟩
  | fuel + 1 => do
    let (final, bits) ← after out (take 1 bits)
    let (kind, bits) ← after out (take 2 bits)
    let (out, bits) ←
      if kind = 0 then readStored limit out bits
      else if kind = 1 then
        readSteps limit (.ofLengths Deflate.fixedLengths) (.ofLengths Deflate.fixedDistances)
          bits.length out bits
      else if kind = 2 then do
        let (lengths, distances, bits) ← after out (readCodes bits)
        readSteps limit lengths distances bits.length out bits
      else .error ⟨.invalid, out⟩
    if final = 1 then .ok (out, bits) else readBlocks limit fuel out bits

/-- The data of a compressed form of at most `limit` bytes, and the whole bytes after it. -/
def decode (limit : Nat) (b : Bytes) : Except Halt (Array UInt8 × Bytes) := do
  let bits := Bits.ofBytes b
  let (out, rest) ← readBlocks limit bits.length #[] bits
  .ok (out, b.drop (b.length - rest.length / 8))

end TagStore.Compression.Inflate
