import TagStore.Config
import TagStore.Text.Decimal
import TagStore.Text.Split

/-!
# Settings from the environment

Each setting has a variable of its own. A variable that is not set, or whose text means nothing
for its setting, leaves the usual value.
-/

namespace TagStore

/-- The variables of an environment. -/
abbrev Environment := String → Option String

namespace Environment

/-- The text of a variable without the white space around it. -/
def trimmed (env : Environment) (name : String) : Option (List Char) :=
  (env name).map fun s => Text.trimChars s.toList

/-- The whole number at most `limit` that a variable writes. -/
def number? (env : Environment) (limit : Nat) (name : String) : Option Nat :=
  (env.trimmed name).bind (Text.unsigned? limit)

/-- The truth value that a variable writes. -/
def flag? (env : Environment) (name : String) : Option Bool :=
  match env.trimmed name with
  | some ['t', 'r', 'u', 'e'] => some true
  | some ['f', 'a', 'l', 's', 'e'] => some false
  | _ => none

end Environment

namespace Config

/-- The settings that an environment gives. -/
def ofEnvironment (env : Environment) : Config :=
  let usual : Config := {}
  let count (name : String) (n : Nat) : Nat := (env.number? Text.maxU64 name).getD n
  let millis (name : String) (d : Duration) : Duration :=
    ((env.number? Text.maxU64 name).map Duration.ofMillis).getD d
  let secs (name : String) (d : Duration) : Duration :=
    ((env.number? Text.maxU64 name).map Duration.ofSecs).getD d
  let flag (name : String) (b : Bool) : Bool := (env.flag? name).getD b
  { endpoints := ((env "OKUYAMA_ENDPOINTS").map Text.entries).getD []
    pool :=
      { maxPoolSize := count "OKUYAMA_POOL_SIZE" usual.pool.maxPoolSize
        connectTimeout := millis "OKUYAMA_CONNECT_TIMEOUT_MS" usual.pool.connectTimeout
        readTimeout := millis "OKUYAMA_READ_TIMEOUT_MS" usual.pool.readTimeout
        connectionTtl := secs "OKUYAMA_CONNECTION_TTL_SECS" usual.pool.connectionTtl }
    health :=
      { recheckInterval := millis "OKUYAMA_RECHECK_INTERVAL_MS" usual.health.recheckInterval
        settleDelay := millis "OKUYAMA_SETTLE_DELAY_MS" usual.health.settleDelay
        probeTimeout := millis "OKUYAMA_PROBE_TIMEOUT_MS" usual.health.probeTimeout }
    encoding :=
      { base64Keys := flag "OKUYAMA_BASE64_KEYS" usual.encoding.base64Keys
        serializeStrings := flag "OKUYAMA_SERIALIZE_STRINGS" usual.encoding.serializeStrings }
    compression :=
      { enabled := flag "OKUYAMA_COMPRESSION" usual.compression.enabled
        minLength := count "OKUYAMA_COMPRESSION_MIN_LENGTH" usual.compression.minLength
        compressor :=
          ((env.number? 255 "OKUYAMA_COMPRESSOR").bind CompressorId.ofNat?).getD
            usual.compression.compressor }
    dumpStream := flag "OKUYAMA_DUMP_STREAM" usual.dumpStream }

end Config

end TagStore
