/-!
# Compression errors

Why a payload cannot be compressed or read back, with the sentence that reports each cause.
-/

namespace TagStore

/-- Why compressing or decompressing fails. -/
inductive CompressionError
  | notCompressed
  | unknownCompressor (id : Nat)
  | truncated (detail : String)
  | sizeLimitExceeded (size limit : Nat)
  | sizeMismatch (expected actual : Nat)
  | compression (detail : String)
  | decompression (detail : String)
deriving Repr, DecidableEq

/-- The sentence that reports an error. -/
def CompressionError.message : CompressionError → String
  | notCompressed => "payload is not compressed (missing [AC EE] magic)"
  | unknownCompressor id => s!"unknown compressor id: {id}"
  | truncated detail => s!"truncated frame: {detail}"
  | sizeLimitExceeded size limit =>
    s!"decompressed size {size} exceeds limit of {limit} bytes"
  | sizeMismatch expected actual =>
    s!"size mismatch: frame declares {expected} bytes, stream produced {actual}"
  | compression detail => s!"compression failed: {detail}"
  | decompression detail => s!"decompression failed: {detail}"

end TagStore
