import TagStore.Compression.Frame
import TagStore.Proofs.Compression.Engines

/-!
# Engines at work

An engine that is fed data from the place on that it has come to takes every byte of it once and in
order, whatever the calls that it takes for that, and gives out the stream of the data from its
start to its end (`Midway`). One lemma says what a call preserves (`Midway.of_work`), and by
induction on the calls the whole stream is put out behind what there was (`Deflater.finish_eq`).

All this is about an engine that is as good as new at the start. A deflate compressor that keeps up
its pools (`DeflateCompressor.Kept`) works with no others, so what it has done before makes no
difference (`DeflateCompressor.Kept.deflate`, `DeflateCompressor.Kept.inflate`).
-/

namespace TagStore

namespace Compression.Deflater

variable {data head : Bytes} {d d' : Deflater} {o o' : Output}

/-- Where an engine stands whose stream of data goes behind a head: it has taken the first bytes of
the data and given nothing out, or it has taken all of them, and what it has still to give out
completes what it has put out. -/
inductive Midway (data head : Bytes) : Deflater → Output → Prop
  | taking {counts : Engine} {taken : Bytes} {o : Output}
    (htaken : taken = data.take counts.totalIn) (hout : o.bytes = head) :
    Midway data head ⟨counts, taken, none⟩ o
  | giving {counts : Engine} {taken rest : Bytes} {o : Output}
    (hall : data.length ≤ counts.totalIn) (hout : o.bytes ++ rest = head ++ Zlib.encode data) :
    Midway data head ⟨counts, taken, some rest⟩ o

theorem midway_start (data : Bytes) (o : Output) : Midway data o.bytes start o :=
  .taking rfl rfl

/-- Room does not matter for where an engine stands. -/
theorem Midway.reserve (h : Midway data head d o) (n : Nat) : Midway data head d (o.reserve n) := by
  cases h with
  | taking htaken hout => exact .taking htaken hout
  | giving hall hout => exact .giving hall hout

theorem work_of_taking {input : Bytes} (h : d.pending = none) :
    d.work input o = if window < input.length then (false, d.feed input, o)
      else (d.feed input).give (Zlib.encode (d.feed input).taken) o := by
  rw [work, h]

theorem work_of_giving {rest : Bytes} (h : d.pending = some rest) : d.work [] o = d.give rest o := by
  rw [work, h]
  exact if_pos rfl

/-- What is taken next follows what has been taken. -/
theorem taken_feed (h : d.taken = data.take d.counts.totalIn) :
    (d.feed (data.drop d.counts.totalIn)).taken =
      data.take (d.feed (data.drop d.counts.totalIn)).counts.totalIn := by
  simp only [feed, Engine.feed, List.length_drop]
  rw [h, ← List.take_add, List.take_eq_take_iff]
  omega

/-- An engine on its way takes more of the data, or it gives out what completes the stream. It is
never fed more after the end. -/
theorem Midway.work_cases (h : Midway data head d o) :
    (∃ d₁, d.work (data.drop d.counts.totalIn) o = (false, d₁, o) ∧ Midway data head d₁ o ∧
      d₁.counts ≠ d.counts) ∨
    ∃ (d₁ : Deflater) (rest : Bytes), d.work (data.drop d.counts.totalIn) o = d₁.give rest o ∧
      data.length ≤ d₁.counts.totalIn ∧ o.bytes ++ rest = head ++ Zlib.encode data := by
  cases h with
  | @taking counts taken _ htaken hout =>
    have hfed := taken_feed (d := ⟨counts, taken, none⟩) htaken
    rw [work_of_taking rfl]
    split
    · rename_i hmore
      refine .inl ⟨_, rfl, .taking hfed hout, fun hsame => ?_⟩
      have hin := congrArg Engine.totalIn hsame
      simp only [feed, Engine.feed, List.length_drop, window] at hmore hin
      omega
    · rename_i hall
      have hin : data.length ≤
          (feed ⟨counts, taken, none⟩ (data.drop counts.totalIn)).counts.totalIn := by
        simp only [feed, Engine.feed, List.length_drop, window] at hall ⊢
        omega
      refine .inr ⟨_, _, rfl, hin, ?_⟩
      rw [hfed, List.take_of_length_le hin, hout]
  | @giving counts taken rest _ hall hout =>
    rw [List.drop_eq_nil_of_le hall, work_of_giving rfl]
    exact .inr ⟨_, rest, rfl, hall, hout⟩

/-- **A call leaves an engine on its way**, and comes to something if there is room left. -/
theorem Midway.of_work (h : Midway data head d o)
    (hw : d.work (data.drop d.counts.totalIn) o = (false, d', o')) :
    Midway data head d' o' ∧ (o'.bytes.length = o'.capacity ∨ d'.counts ≠ d.counts) := by
  rcases h.work_cases with ⟨d₁, hwork, hmid, hmoved⟩ | ⟨d₁, rest, hwork, hall, hout⟩
  · obtain ⟨rfl, rfl⟩ := Prod.mk.inj (Prod.mk.inj (hwork.symm.trans hw)).2
    exact ⟨hmid, .inr hmoved⟩
  · obtain ⟨-, hin, hpending, hbytes, hfull⟩ := of_give (hwork.symm.trans hw)
    obtain ⟨counts, taken, pending⟩ := d'
    obtain rfl : pending = some (rest.drop o.room) := hpending
    refine ⟨.giving (hin ▸ hall) ?_, .inl hfull⟩
    rw [hbytes, List.append_assoc, List.take_append_drop, hout]

/-- The call that ends the stream has put out all of it. -/
theorem Midway.bytes_of_work (h : Midway data head d o)
    (hw : d.work (data.drop d.counts.totalIn) o = (true, d', o')) :
    o'.bytes = head ++ Zlib.encode data := by
  rcases h.work_cases with ⟨d₁, hwork, -⟩ | ⟨d₁, rest, hwork, -, hout⟩
  · cases hwork.symm.trans hw
  · rw [bytes_of_give (hwork.symm.trans hw), hout]

/-- **The stream of the data is put out**, whatever room there is at the start. -/
theorem Midway.finish_eq (h : Midway data head d o) :
    (d.finish data o).1 = .ok (head ++ Zlib.encode data) := by
  fun_induction finish data d o with
  | case1 d o d' o' hw => rw [h.bytes_of_work hw]
  | case2 d o d' o' hw hfull ih => exact ih ((h.of_work hw).1.reserve _)
  | case3 d o d' o' hw hroom hstuck =>
    obtain ⟨-, hfull | hmoved⟩ := h.of_work hw
    · exact absurd hfull hroom
    · exact absurd hstuck hmoved
  | case4 d o d' o' hw hroom hmoved ih => exact ih (h.of_work hw).1

theorem finish_start (data : Bytes) (o : Output) :
    (start.finish data o).1 = .ok (o.bytes ++ Zlib.encode data) :=
  (midway_start data o).finish_eq

end Compression.Deflater

open Compression

namespace DeflateCompressor

variable {bound : Nat} {s : DeflateCompressor}

/-- Whether both pools keep so many engines and are kept up. -/
structure Kept (bound : Nat) (s : DeflateCompressor) : Prop where
  compressors : s.compressors.Kept bound
  decompressors : s.decompressors.Kept bound

theorem kept_new (bound : Nat) : (new bound).Kept bound :=
  ⟨EnginePool.kept_empty bound, EnginePool.kept_empty bound⟩

/-- **The stream of data goes behind what has been put out**, whatever was deflated before. -/
theorem Kept.deflate (h : s.Kept bound) (data : Bytes) (o : Output) :
    (s.deflate data o).1 = .ok (o.bytes ++ Zlib.encode data) ∧ (s.deflate data o).2.Kept bound := by
  obtain ⟨hresult, hkept⟩ := h.compressors.withEngine (Deflater.finish data · o)
  exact ⟨hresult.trans (Deflater.finish_start data o), hkept, h.decompressors⟩

/-- What is inflated is what an engine makes of it that is as good as new. -/
theorem Kept.inflate (h : s.Kept bound) (most : Nat) (stream : Bytes) (o : Output) :
    (s.inflate most stream o).1 = (Inflater.start.finish most stream o).1 ∧
      (s.inflate most stream o).2.Kept bound := by
  obtain ⟨hresult, hkept⟩ := h.decompressors.withEngine (Inflater.finish most stream · o)
  exact ⟨hresult, h.compressors, hkept⟩

end DeflateCompressor

end TagStore
