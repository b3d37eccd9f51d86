import TagStore.Compression.Inflate
import TagStore.Proofs.Compression.Bits
import TagStore.Proofs.Compression.Description

/-!
# Deflate reads back

A number reads back from the symbol of its base and the extra bits of that symbol, since the bases
leave no gap (`takeBased_baseOf`). With the fixed codes, each of which is read off the bits it
stands at the head of (`read_fixedCode`), the steps of a description read back one by one
(`readSteps_tokens`), and so does the block (`decode_encode`).
-/

namespace TagStore.Compression

namespace Deflate

/-! ## Bases -/

/-- The base that comes next in a list of them, or the end of what they reach. -/
def nextBase (limit : Nat) : List (Nat × Nat) → Nat
  | [] => limit
  | (base, _) :: _ => base

/-- No number below the limit lies between what the extra bits of a base reach and the next
base. -/
def Gapless (limit : Nat) : List (Nat × Nat) → Prop
  | [] => True
  | (base, extra) :: r => nextBase limit r ≤ base + 1 <<< extra ∧ Gapless limit r

/-- The symbol at the given place has the base and the extra bits that write `n`. -/
structure Writes (bases : List (Nat × Nat)) (n : Nat) (found : Nat × Nat × Nat) : Prop where
  base : bases[found.1]? = some found.2
  le : found.2.1 ≤ n
  lt : n < found.2.1 + 1 <<< found.2.2

theorem Writes.lt_length {bases : List (Nat × Nat)} {n : Nat} {found : Nat × Nat × Nat}
    (h : Writes bases n found) : found.1 < bases.length :=
  (List.getElem?_eq_some_iff.1 h.base).1

theorem writes_foldl {bases l : List (Nat × Nat)} {k limit n : Nat} {found : Nat × Nat × Nat}
    (hl : bases.drop k = l) (hg : Gapless limit l) (hn : n < limit)
    (hb : bases[found.1]? = some found.2) (hle : found.2.1 ≤ n)
    (hnext : n < found.2.1 + 1 <<< found.2.2 ∨ nextBase limit l ≤ found.2.1 + 1 <<< found.2.2) :
    Writes bases n ((l.zipIdx k).foldl (fun found ((base, extra), i) =>
      if base ≤ n then (i, base, extra) else found) found) := by
  induction l generalizing k found with
  | nil => exact ⟨hb, hle, hnext.elim id (Nat.lt_of_lt_of_le hn)⟩
  | cons b l ih =>
    obtain ⟨base, extra⟩ := b
    obtain ⟨hreach, hg⟩ := hg
    have hl' : bases.drop (k + 1) = l := by
      rw [← List.drop_drop, hl, List.drop_succ_cons, List.drop_zero]
    have hk : bases[k]? = some (base, extra) := by
      rw [← List.head?_drop, hl, List.head?_cons]
    rw [List.zipIdx_cons, List.foldl_cons]
    by_cases h : base ≤ n
    · simp only [if_pos h]
      exact ih hl' hg hk h (.inr hreach)
    · simp only [if_neg h]
      refine ih hl' hg hb hle (.inl ?_)
      exact hnext.elim id fun hr => Nat.lt_of_lt_of_le (Nat.not_le.1 h) hr

/-- **Every number that gapless bases reach has a symbol that writes it.** -/
theorem writes_baseOf {bases : List (Nat × Nat)} {base extra n : Nat} (limit : Nat)
    (hg : Gapless limit ((base, extra) :: bases)) (hle : base ≤ n) (hn : n < limit) :
    Writes ((base, extra) :: bases) n (baseOf ((base, extra) :: bases) n) := by
  rw [baseOf, List.zipIdx_cons, List.foldl_cons]
  simp only [if_pos hle]
  exact writes_foldl rfl hg.2 hn rfl hle (.inr hg.1)

theorem writes_length {n : Nat} (hn : 3 ≤ n) (h : n ≤ 258) :
    Writes lengthBases n (baseOf lengthBases n) :=
  writes_baseOf 259 (by simp [Gapless, nextBase, Nat.shiftLeft_eq]) hn (by omega)

theorem writes_distance {n : Nat} (hn : 0 < n) (h : n ≤ 32768) :
    Writes distanceBases n (baseOf distanceBases n) :=
  writes_baseOf 32769 (by simp [Gapless, nextBase, Nat.shiftLeft_eq]) hn (by omega)

/-! ## Lengths -/

theorem length_fixedCode (s : Nat) : 1 ≤ (fixedCode s).length ∧ (fixedCode s).length ≤ 9 := by
  rw [fixedCode]
  split
  · simp [code]
  · split
    · simp [code]
    · split <;> simp [code]

/-- A step takes at most nine bits for each byte that it produces. -/
theorem length_flatMap_tokenBits {data : Array UInt8} {i : Nat} {ts : List Token}
    (h : Describes copyRule data i ts) :
    (ts.flatMap tokenBits).length + 9 * i ≤ 9 * data.size := by
  induction h with
  | done => simp
  | @literal i ts hi _ ih =>
    obtain ⟨-, hc⟩ := length_fixedCode data[i].toNat
    rw [List.flatMap_cons, List.length_append, tokenBits]
    omega
  | @copy i n d ts hd _ hmax hmin hlen _ _ _ ih =>
    rw [minCopy] at hmin
    have hl := List.mem_of_getElem? (writes_length (by omega) hlen).base
    have hs := List.mem_of_getElem? (writes_distance hd hmax).base
    rcases hb : baseOf lengthBases n with ⟨s, base, extra⟩
    rcases hb' : baseOf distanceBases d with ⟨s', base', extra'⟩
    rw [hb] at hl
    rw [hb'] at hs
    have hle : extra ≤ 5 := (by decide : ∀ b ∈ lengthBases, b.2 ≤ 5) _ hl
    have hle' : extra' ≤ 13 := (by decide : ∀ b ∈ distanceBases, b.2 ≤ 13) _ hs
    obtain ⟨-, hc⟩ := length_fixedCode (257 + s)
    simp only [List.flatMap_cons, List.length_append, tokenBits, hb, hb', Bits.length_ofNat, code,
      List.length_reverse]
    omega

/-- The compressed form is longer than its data by an eighth part and a few bytes at most. -/
theorem length_encode_le (data : Bytes) : 8 * (encode data).length ≤ 9 * data.length + 19 := by
  have h := length_flatMap_tokenBits (describes_tokenize copyRule data)
  obtain ⟨-, hc⟩ := length_fixedCode endOfBlock
  have hb := Bits.length_toBytes_le (blockBits (tokenize copyRule data))
  have hlen : (blockBits (tokenize copyRule data)).length =
      3 + ((tokenize copyRule data).flatMap tokenBits).length + (fixedCode endOfBlock).length := by
    rw [blockBits, List.length_append, List.length_append]
    rfl
  rw [List.size_toArray] at h
  rw [encode]
  omega

end Deflate

namespace Inflate

open Deflate

/-! ## Parts of a step -/

/-- What is read of a code does not look at the bits after it. -/
theorem readFrom_append {symbols : Array Nat} {value first index s : Nat} {counts : List Nat}
    {bits r : Bits} (h : PrefixCode.readFrom symbols value first index counts bits = .ok (s, r))
    (c : Bits) :
    PrefixCode.readFrom symbols value first index counts (bits ++ c) = .ok (s, r ++ c) := by
  induction counts generalizing value first index bits with
  | nil => cases h
  | cons count counts ih =>
    cases bits with
    | nil => cases h
    | cons b bits =>
      rw [PrefixCode.readFrom] at h
      rw [List.cons_append, PrefixCode.readFrom]
      split at h
      · rename_i hv
        rw [if_pos hv]
        split at h
        · cases h
          rfl
        · cases h
      · rename_i hv
        rw [if_neg hv]
        exact ih h

theorem eq_ok_of_toOption {α : Type} {x : Except Fault α} {a : α} (h : x.toOption = some a) :
    x = .ok a := by
  cases x with
  | ok b => exact congrArg _ (Option.some.inj h)
  | error e => cases h

theorem toOption_read_fixedCode :
    ∀ s < 288,
      ((PrefixCode.ofLengths fixedLengths).read (fixedCode s)).toOption = some (s, []) := by
  decide +kernel

theorem toOption_read_code :
    ∀ s < 32, ((PrefixCode.ofLengths fixedDistances).read (code 5 s)).toOption = some (s, []) := by
  decide +kernel

/-- Every symbol reads back from its fixed code. -/
theorem read_fixedCode {s : Nat} (hs : s < 288) (r : Bits) :
    (PrefixCode.ofLengths fixedLengths).read (fixedCode s ++ r) = .ok (s, r) :=
  readFrom_append (eq_ok_of_toOption (toOption_read_fixedCode s hs)) r

/-- Every symbol of a distance reads back from its fixed code. -/
theorem read_code {s : Nat} (hs : s < 32) (r : Bits) :
    (PrefixCode.ofLengths fixedDistances).read (code 5 s ++ r) = .ok (s, r) :=
  readFrom_append (eq_ok_of_toOption (toOption_read_code s hs)) r

theorem take_ofNat {w n : Nat} (h : n < 1 <<< w) (r : Bits) :
    take w (Bits.ofNat w n ++ r) = .ok (n, r) := by
  have hlen : (Bits.ofNat w n).length = w := Bits.length_ofNat w n
  rw [take, List.take_left' hlen, List.drop_left' hlen, hlen, if_neg (Nat.lt_irrefl w),
    Bits.toNat_ofNat h]

/-- A number reads back from its extra bits. -/
theorem takeBased_writes {bases : List (Nat × Nat)} {n : Nat} {found : Nat × Nat × Nat}
    (h : Writes bases n found) (r : Bits) :
    takeBased bases found.1 (Bits.ofNat found.2.2 (n - found.2.1) ++ r) = .ok (n, r) := by
  obtain ⟨i, base, extra⟩ := found
  obtain ⟨hb, hle, hlt⟩ := h
  simp only at hb hle hlt ⊢
  have hex : n - base < 1 <<< extra := by omega
  rw [takeBased, hb]
  simp only [take_ofNat hex]
  change Except.ok (base + (n - base), r) = _
  rw [Nat.add_sub_cancel' hle]

/-! ## Steps and blocks -/

variable {data out : Array UInt8} {limit fuel i n d : Nat}

theorem readSteps_literal (fuel : Nat) (b : UInt8) (r : Bits) (h : out.size < limit) :
    readSteps limit (.ofLengths fixedLengths) (.ofLengths fixedDistances) (fuel + 1) out
        (tokenBits (.literal b) ++ r) =
      readSteps limit (.ofLengths fixedLengths) (.ofLengths fixedDistances) fuel
        (out.push b) r := by
  have hb : b.toNat < 256 := b.toNat_lt
  rw [readSteps, tokenBits, read_fixedCode (by omega)]
  simp only [after_ok, bind, Except.bind]
  rw [if_pos hb, if_pos h, UInt8.ofNat_toNat]

theorem readSteps_copy (fuel : Nat) (r : Bits) (hn : 3 ≤ n) (hn' : n ≤ 258) (hd : 0 < d)
    (hd' : d ≤ 32768) (hout : d ≤ out.size) (hlimit : out.size + n ≤ limit) :
    readSteps limit (.ofLengths fixedLengths) (.ofLengths fixedDistances) (fuel + 1) out
        (tokenBits (.copy n d) ++ r) =
      readSteps limit (.ofLengths fixedLengths) (.ofLengths fixedDistances) fuel
        (copyBack d out n) r := by
  have hl := writes_length hn hn'
  have hs := writes_distance hd hd'
  have hi : (baseOf lengthBases n).1 < 29 := hl.lt_length
  have hj : (baseOf distanceBases d).1 < 30 := hs.lt_length
  have hsym : 257 + (baseOf lengthBases n).1 - 257 = (baseOf lengthBases n).1 := by omega
  rw [readSteps, tokenBits]
  simp only [List.append_assoc, read_fixedCode (show 257 + (baseOf lengthBases n).1 < 288 by omega),
    after_ok, bind, Except.bind]
  rw [if_neg (by omega), if_neg (by rw [endOfBlock]; omega), hsym, takeBased_writes hl]
  simp only [after_ok, read_code (show (baseOf distanceBases d).1 < 32 by omega)]
  rw [takeBased_writes hs]
  simp only [after_ok]
  rw [if_neg (by omega), if_neg (by omega)]

theorem readSteps_end (fuel : Nat) (r : Bits) :
    readSteps limit (.ofLengths fixedLengths) (.ofLengths fixedDistances) (fuel + 1) out
      (fixedCode endOfBlock ++ r) = .ok (out, r) := by
  rw [readSteps, read_fixedCode (by decide)]
  simp only [after_ok, bind, Except.bind]
  rw [if_neg (by decide), if_pos trivial]

/-- **The steps of a description read back one by one.** -/
theorem readSteps_tokens {ts : List Token} (h : Describes Deflate.copyRule data i ts)
    (hlimit : data.size ≤ limit) (hfuel : ts.length < fuel) (r : Bits) :
    readSteps limit (.ofLengths fixedLengths) (.ofLengths fixedDistances) fuel (data.extract 0 i)
      (ts.flatMap tokenBits ++ (fixedCode endOfBlock ++ r)) = .ok (data, r) := by
  induction h generalizing fuel with
  | done =>
    obtain ⟨fuel, rfl⟩ : ∃ f, fuel = f + 1 := ⟨fuel - 1, by omega⟩
    rw [List.flatMap_nil, List.nil_append, readSteps_end, Array.extract_size]
  | @literal i ts hi _ ih =>
    obtain ⟨fuel, rfl⟩ : ∃ f, fuel = f + 1 := ⟨fuel - 1, by omega⟩
    rw [List.length_cons] at hfuel
    have hsize : (data.extract 0 i).size < limit := by
      rw [Array.size_extract]
      omega
    rw [List.flatMap_cons, List.append_assoc, readSteps_literal fuel _ _ hsize,
      Array.push_extract_getElem hi, Nat.zero_min]
    exact ih (by omega)
  | @copy i n d ts hd hi hmax hmin hlen hn hag _ ih =>
    obtain ⟨fuel, rfl⟩ : ∃ f, fuel = f + 1 := ⟨fuel - 1, by omega⟩
    rw [List.length_cons] at hfuel
    rw [minCopy] at hmin
    have hsize : (data.extract 0 i).size = i := by
      rw [Array.size_extract]
      omega
    rw [List.flatMap_cons, List.append_assoc, readSteps_copy fuel _ (by omega) hlen hd hmax
      (by omega) (by omega), copyBack_extract hd hi hn hag]
    exact ih (by omega)

/-- A block has more bits than steps. -/
theorem length_lt_length_flatMap (ts : List Token) (r : Bits) :
    ts.length < (ts.flatMap tokenBits ++ (fixedCode endOfBlock ++ r)).length := by
  induction ts with
  | nil =>
    obtain ⟨h, -⟩ := length_fixedCode endOfBlock
    rw [List.flatMap_nil, List.nil_append, List.length_append, List.length_nil]
    omega
  | cons t ts ih =>
    have h : 1 ≤ (tokenBits t).length := by
      cases t with
      | literal b => exact (length_fixedCode _).1
      | copy n d =>
        obtain ⟨h, -⟩ := length_fixedCode (257 + (baseOf lengthBases n).1)
        simp only [tokenBits, List.length_append]
        omega
    rw [List.flatMap_cons, List.append_assoc, List.length_append, List.length_cons]
    omega

/-- The block of a description reads back. -/
theorem readBlocks_blockBits {ts : List Token} (h : Describes Deflate.copyRule data 0 ts)
    (hlimit : data.size ≤ limit) (fuel : Nat) (r : Bits) :
    readBlocks limit (fuel + 1) #[] (blockBits ts ++ r) = .ok (data, r) := by
  have hsteps := readSteps_tokens h hlimit (length_lt_length_flatMap ts r) r
  rw [Array.extract_zero] at hsteps
  have hfinal : take 1 ([true] ++ ([true, false] ++ (ts.flatMap tokenBits ++
      (fixedCode endOfBlock ++ r)))) = .ok (1, _) := take_ofNat (w := 1) (n := 1) (by decide) _
  have hkind : take 2 ([true, false] ++ (ts.flatMap tokenBits ++
      (fixedCode endOfBlock ++ r))) = .ok (1, _) := take_ofNat (w := 2) (n := 1) (by decide) _
  have hbits : blockBits ts ++ r = [true] ++ ([true, false] ++ (ts.flatMap tokenBits ++
      (fixedCode endOfBlock ++ r))) := by simp [blockBits]
  rw [hbits, readBlocks, hfinal]
  simp only [after_ok, bind, Except.bind]
  rw [hkind]
  simp only [after_ok]
  rw [if_neg (by decide), if_pos trivial, hsteps]
  simp only
  rw [if_pos trivial]

/-- **Data reads back from its compressed form**, whatever bytes follow it. -/
theorem decode_encode {data : Bytes} (hlimit : data.length ≤ limit) (r : Bytes) :
    decode limit (Deflate.encode data ++ r) = .ok (data.toArray, r) := by
  obtain ⟨k, hk, hb⟩ := Bits.ofBytes_toBytes (blockBits (tokenize Deflate.copyRule data))
  have hbits : Bits.ofBytes (Deflate.encode data ++ r) =
      blockBits (tokenize Deflate.copyRule data) ++
        (List.replicate k false ++ Bits.ofBytes r) := by
    rw [Bits.ofBytes_append, Deflate.encode, hb, List.append_assoc]
  -- the bits of the header alone give fuel for the one block
  obtain ⟨fuel, hfuel⟩ : ∃ f, (blockBits (tokenize Deflate.copyRule data) ++
      (List.replicate k false ++ Bits.ofBytes r)).length = f + 1 := ⟨_, by
    rw [blockBits, List.append_assoc, List.append_assoc]; rfl⟩
  have hsize : data.toArray.size ≤ limit := by simpa using hlimit
  have hblock := readBlocks_blockBits (describes_tokenize Deflate.copyRule data) hsize fuel
    (List.replicate k false ++ Bits.ofBytes r)
  have hrest : (List.replicate k false ++ Bits.ofBytes r).length / 8 = r.length := by
    rw [List.length_append, List.length_replicate, Bits.length_ofBytes]
    omega
  rw [decode, hbits, hfuel, hblock]
  simp only [bind, Except.bind, hrest]
  rw [List.length_append, Nat.add_sub_cancel, List.drop_left]

end Inflate

end TagStore.Compression
