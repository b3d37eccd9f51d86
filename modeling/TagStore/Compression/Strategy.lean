import TagStore.Compression.Frame

/-!
# Choosing a compressor

Whether a value is compressed when it is written, and by which compressor. Reading never asks: a
frame names its compressor itself.
-/

namespace TagStore

/-- A rule that chooses a compressor for a value. -/
inductive CompressionStrategy
  | never
  | threshold (minLength : Nat) (id : CompressorId)
deriving Repr, DecidableEq

namespace CompressionStrategy

/-- The length that a value must pass to be compressed, if nothing else is set. -/
def defaultMinLength : Nat := 32

/-- Compresses values that are longer than usual texts by deflate. -/
def standard : CompressionStrategy := .threshold defaultMinLength .deflate

/-- The compressor for a value of the given length under a key. -/
def select (s : CompressionStrategy) (_key : String) (length : Nat) : Option CompressorId :=
  match s with
  | never => none
  | threshold minLength id => if minLength < length then some id else none

end CompressionStrategy

end TagStore
