import TagStore.Proofs.Compression.Frame

/-!
# The limits of writing and of reading

Four bytes hold greater sizes than a reader takes. Whatever size fits into them is written
(`CompressorRegistry.decompress_written`); between the two limits lies the data that can be put into
a frame and cannot be read from it again. A reader looks at the size before anything behind it.
-/

namespace TagStore

namespace Frame

/-- **A size that is too great is refused at once**, whatever follows it. -/
theorem readBody_of_long {c : Compressor} {size : Bytes} (rest : Bytes) (hlen : size.length = 4)
    (hlong : maxSize < readSize c size) :
    readBody c (size ++ rest) = .error (.sizeLimitExceeded (readSize c size) maxSize) := by
  rw [readBody, List.take_left' hlen, hlen, if_neg (by decide)]
  exact if_pos hlong

end Frame

namespace CompressorRegistry

open TagStore.Frame

variable {r : CompressorRegistry} {id : CompressorId} {c : Compressor} {data framed : Bytes}

/-- A frame of more data than a reader takes is not read. -/
theorem decompress_of_long (h : r.compress id data = .ok framed) (hlong : maxSize < data.length) :
    r.decompress framed = .error (.sizeLimitExceeded data.length maxSize) := by
  obtain ⟨c, hc, rfl⟩ := compress_eq_ok h
  have hread := readSize_sizeBytes c (length_le_of_compress hc h)
  rw [decompress_cons, named?_ofNat, hc]
  dsimp only
  rw [readBody_of_long _ (length_sizeBytes c _) (hread.symm ▸ hlong), hread]

/-- **A frame reads back unless its data is greater than a reader takes.** Data is put into a frame
unless it is greater than four bytes can say. The frame is then refused for its size exactly if the
data has more than 256 MiB, and it gives the data again if not. -/
theorem decompress_written (hc : r.get? id = some c) (data : Bytes) :
    (maxDeclared < data.length →
      r.compress id data = .error (.sizeLimitExceeded data.length maxDeclared)) ∧
    (data.length ≤ maxDeclared → ∃ framed, r.compress id data = .ok framed ∧
      r.decompress framed =
        if maxSize < data.length then .error (.sizeLimitExceeded data.length maxSize)
        else .ok data) := by
  refine ⟨compress_of_long hc, fun hsize => ?_⟩
  have hcompress := compress_of_get? hc hsize
  refine ⟨_, hcompress, ?_⟩
  split
  · rename_i hlong
    exact decompress_of_long hcompress hlong
  · rename_i hshort
    exact decompress_compress hcompress (Nat.le_of_not_lt hshort)

/-- One byte more than a reader takes, and none. -/
theorem decompress_written_lz4 :
    standard.get? .lz4 = some .lz4 ∧
    (∃ framed, standard.compress .lz4 (List.replicate 268435457 97) = .ok framed ∧
      standard.decompress framed = .error (.sizeLimitExceeded 268435457 maxSize)) ∧
    ∃ framed, standard.compress .lz4 [] = .ok framed ∧ standard.decompress framed = .ok [] := by
  have hc : standard.get? .lz4 = some .lz4 := by decide
  obtain ⟨-, hlong⟩ := decompress_written hc (List.replicate 268435457 97)
  obtain ⟨-, hshort⟩ := decompress_written hc []
  rw [List.length_replicate, if_pos (by decide)] at hlong
  exact ⟨hc, hlong (by decide), hshort (by decide)⟩

/-- Data of which the size fits into a frame and not into a reader: one byte more than 256 MiB. -/
theorem not_decompress_of_compress :
    ¬ ∀ framed, standard.compress .lz4 (List.replicate 268435457 97) = .ok framed →
      ∀ size limit, standard.decompress framed ≠ .error (.sizeLimitExceeded size limit) := by
  intro hclaim
  have hc : standard.get? .lz4 = some .lz4 := by decide
  have hlen : (List.replicate 268435457 (97 : UInt8)).length = 268435457 :=
    List.length_replicate
  have hsize : (List.replicate 268435457 (97 : UInt8)).length ≤ maxDeclared := by
    rw [hlen]
    decide
  have hlong : maxSize < (List.replicate 268435457 (97 : UInt8)).length := by
    rw [hlen]
    decide
  have hcompress := compress_of_get? hc hsize
  exact hclaim _ hcompress _ _ (decompress_of_long hcompress hlong)

end CompressorRegistry

end TagStore
