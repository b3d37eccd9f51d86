import TagStore.Compression.Lz4
import TagStore.Proofs.Base64
import TagStore.Proofs.Compression.Description

/-!
# LZ4 blocks read back

A length reads back from its four bits and the bytes that continue it (`readLength_lengthBytes`),
so a sequence reads back (`decodeFrom_sequenceBytes`), and by induction on the description of the
data so does a block (`decode?_encode`). A block is longer than its data by little
(`length_encode_le`), so the room that is set aside for it is enough
(`length_encode_le_maxOutputSize`).
-/

namespace TagStore.Compression.Lz4

/-! ## Lengths -/

theorem readMore_replicate (q n : Nat) {x : Nat} (hx : x < 255) (r : Bytes) :
    readMore n (List.replicate q 255 ++ UInt8.ofNat x :: r) = some (n + q * 255 + x, r) := by
  induction q generalizing n with
  | zero =>
    have h : (UInt8.ofNat x).toNat = x := by
      rw [UInt8.toNat_ofNat']
      omega
    have hne : UInt8.ofNat x ≠ 255 := fun he => by
      rw [he] at h
      exact absurd h (Nat.ne_of_gt hx)
    rw [List.replicate_zero, List.nil_append, readMore, if_neg hne, h, Nat.zero_mul, Nat.add_zero]
  | succ q ih =>
    rw [List.replicate_succ, List.cons_append, readMore, if_pos rfl, ih]
    congr 2
    omega

/-- A length reads back from its four bits and the bytes that continue it. -/
theorem readLength_lengthBytes (n : Nat) (r : Bytes) :
    readLength (min n 15) (lengthBytes n ++ r) = some (n, r) := by
  rw [readLength, lengthBytes]
  by_cases h : n < 15
  · rw [if_pos h, if_neg (by omega), Nat.min_eq_left (by omega)]
    rfl
  · rw [if_neg h, Nat.min_eq_right (by omega), if_pos rfl, List.append_assoc,
      List.singleton_append, readMore_replicate _ _ (by omega)]
    congr 2
    omega

theorem length_lengthBytes_le (n : Nat) : 15 * (lengthBytes n).length ≤ n := by
  rw [lengthBytes]
  split
  · exact Nat.zero_le n
  · rw [List.length_append, List.length_replicate, List.length_singleton]
    omega

/-! ## Sequences -/

/-- The byte that holds both lengths of a sequence gives them back. -/
theorem toNat_lengths {m n : Nat} (hm : m ≤ 15) (hn : n ≤ 15) :
    (UInt8.ofNat (m * 16 + n)).toNat / 16 = m ∧ (UInt8.ofNat (m * 16 + n)).toNat % 16 = n := by
  rw [UInt8.toNat_ofNat']
  omega

/-- The two bytes of a distance give it back. -/
theorem toNat_distance {d : Nat} (hd : d ≤ 65535) :
    (UInt8.ofNat d).toNat + 256 * (UInt8.ofNat (d / 256)).toNat = d := by
  rw [UInt8.toNat_ofNat', UInt8.toNat_ofNat']
  omega

/-- **A sequence reads back.** -/
theorem decodeFrom_sequenceBytes {limit n d : Nat} {out : Array UInt8} {literals : Bytes}
    (fuel : Nat) (r : Bytes) (hd : 0 < d) (hout : d ≤ out.size + literals.length)
    (hmax : d ≤ 65535) (hn : minCopy ≤ n) (hlimit : out.size + literals.length + n ≤ limit) :
    decodeFrom limit (fuel + 1) out (sequenceBytes literals n d ++ r) =
      decodeFrom limit fuel (copyBack d (out ++ literals.toArray) n) r := by
  obtain ⟨h₁, h₂⟩ := toNat_lengths (Nat.min_le_right literals.length 15)
    (Nat.min_le_right (n - minCopy) 15)
  have hsize : (out ++ literals.toArray).size = out.size + literals.length := by simp
  simp only [sequenceBytes, List.cons_append, List.append_assoc, decodeFrom, h₁, h₂,
    readLength_lengthBytes, List.take_left, List.drop_left, List.nil_append, toNat_distance hmax,
    Nat.sub_add_cancel hn, hsize]
  rw [if_neg (by omega), if_neg (by omega)]

/-- The last sequence reads back. -/
theorem decodeFrom_lastBytes {limit : Nat} {out : Array UInt8} {literals : Bytes} (fuel : Nat)
    (hlimit : out.size + literals.length ≤ limit) :
    decodeFrom limit (fuel + 1) out (lastBytes literals) = some (out ++ literals.toArray) := by
  obtain ⟨h, -⟩ := toNat_lengths (Nat.min_le_right literals.length 15) (Nat.zero_le 15)
  rw [Nat.add_zero] at h
  simp only [lastBytes, decodeFrom, h, readLength_lengthBytes, List.take_length, List.drop_length]
  rw [if_neg (by omega)]

theorem encodeFrom_eq (acc literals : Bytes) (ts : List Token) :
    encodeFrom acc literals ts = acc.reverse ++ encodeFrom [] literals ts := by
  induction ts generalizing acc literals with
  | nil => rfl
  | cons t ts ih =>
    cases t with
    | literal b => exact ih acc (b :: literals)
    | copy n d =>
      rw [encodeFrom, ih, encodeFrom, List.append_nil, ih (List.reverse _) [],
        List.reverse_append, List.append_assoc]

/-- The block of a description reads back, from any place of the data on. -/
theorem decodeFrom_encodeFrom {data : Array UInt8} (out : Array UInt8) (literals : Bytes)
    {i fuel : Nat} {ts : List Token} (h : Describes copyRule data i ts)
    (ho : out ++ literals.reverse.toArray = data.extract 0 i)
    (hfuel : (encodeFrom [] literals ts).length ≤ fuel) :
    decodeFrom data.size fuel out (encodeFrom [] literals ts) = some data := by
  induction h generalizing out literals fuel with
  | done =>
    rw [Array.extract_size] at ho
    have hsize := congrArg Array.size ho
    simp only [Array.size_append, List.size_toArray] at hsize
    obtain ⟨fuel, rfl⟩ : ∃ f, fuel = f + 1 := ⟨fuel - 1, by
      rw [encodeFrom, List.reverse_nil, List.nil_append, lastBytes, List.length_cons] at hfuel
      omega⟩
    rw [encodeFrom, List.reverse_nil, List.nil_append, decodeFrom_lastBytes fuel (by omega), ho]
  | @literal i ts hi _ ih =>
    refine ih out (data[i] :: literals) ?_ hfuel
    rw [List.reverse_cons, ← List.push_toArray, ← Array.push_append, ho,
      Array.push_extract_getElem hi, Nat.zero_min]
  | @copy i n d ts hd hi hmax hmin _ hn hag _ ih =>
    have hsize := congrArg Array.size ho
    simp only [Array.size_append, List.size_toArray, Array.size_extract] at hsize
    rw [encodeFrom, encodeFrom_eq, List.append_nil, List.reverse_reverse] at hfuel ⊢
    obtain ⟨fuel, rfl⟩ : ∃ f, fuel = f + 1 := ⟨fuel - 1, by
      rw [List.length_append, sequenceBytes, List.length_cons] at hfuel
      omega⟩
    rw [decodeFrom_sequenceBytes fuel _ hd (by omega) hmax hmin (by omega), ho,
      copyBack_extract hd hi hn hag]
    apply ih _ [] (by simp)
    rw [List.length_append, sequenceBytes, List.length_cons] at hfuel
    omega

/-- **A block reads back**, if there is room for its data and no more. -/
theorem decode?_encode (data : Bytes) : decode? data.length (encode data) = some data := by
  have h := decodeFrom_encodeFrom #[] [] (describes_tokenize copyRule data) (by simp)
    (Nat.le_refl _)
  rw [decode?, encode]
  rw [List.size_toArray] at h
  rw [h]
  rfl

/-! ## Lengths of blocks -/

theorem length_encodeFrom_le {data : Array UInt8} (literals : Bytes) {i : Nat} {ts : List Token}
    (h : Describes copyRule data i ts) :
    15 * (encodeFrom [] literals ts).length ≤ 16 * (literals.length + (data.size - i)) + 15 := by
  induction h generalizing literals with
  | done =>
    have h := length_lengthBytes_le literals.reverse.length
    simp only [encodeFrom, lastBytes, List.reverse_nil, List.nil_append, List.length_cons,
      List.length_append, List.length_reverse] at h ⊢
    omega
  | @literal i ts hi _ ih =>
    have h := ih (data[i] :: literals)
    rw [List.length_cons] at h
    rw [encodeFrom]
    omega
  | @copy i n d ts _ _ _ hmin _ hn _ _ ih =>
    have h := ih []
    have hl := length_lengthBytes_le literals.reverse.length
    have hc := length_lengthBytes_le (n - minCopy)
    rw [encodeFrom, encodeFrom_eq, List.append_nil, List.reverse_reverse]
    simp only [sequenceBytes, minCopy, List.length_append, List.length_cons, List.length_nil,
      List.length_reverse] at h hl hc hmin ⊢
    omega

/-- A block is longer than its data by a fifteenth part and a byte at most. -/
theorem length_encode_le (data : Bytes) :
    15 * (encode data).length ≤ 16 * data.length + 15 := by
  have h := length_encodeFrom_le [] (describes_tokenize copyRule data)
  simpa [encode] using h

/-- **The room that is set aside is enough for every block.** -/
theorem length_encode_le_maxOutputSize (data : Bytes) :
    (encode data).length ≤ maxOutputSize data.length := by
  have h := length_encode_le data
  rw [maxOutputSize]
  omega

/-- A block goes behind what has been put out, if so much room is set aside for it. -/
theorem write_eq {data : Bytes} {o : Output} (h : maxOutputSize data.length ≤ o.room) :
    write data o = .ok (o.bytes ++ encode data) := by
  have hroom := Nat.le_trans (length_encode_le_maxOutputSize data) h
  rw [write]
  exact (if_neg (Nat.not_lt.2 hroom)).trans (congrArg Except.ok (Output.bytes_fill hroom))

end TagStore.Compression.Lz4
