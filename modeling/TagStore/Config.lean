import TagStore.Compression.Strategy
import TagStore.Duration
import TagStore.Text.Quoted

/-!
# Settings of a client

Where the master nodes are, how connections are kept, how lost nodes are looked for, and how keys
and values travel. `Config.validate` names the first setting that no client can run with.
-/

namespace TagStore

/-- Why a client cannot be made from its settings. -/
inductive ConfigError
  | noEndpoints
  | invalidEndpoint (endpoint reason : String)
  | invalidSetting (name reason : String)
deriving Repr, DecidableEq

/-- The sentence that reports an error. -/
def ConfigError.message : ConfigError → String
  | noEndpoints => "no endpoints configured"
  | invalidEndpoint endpoint reason => s!"invalid endpoint {Text.quote endpoint}: {reason}"
  | invalidSetting name reason => s!"invalid setting {name}: {reason}"

/-- How connections are made and kept. -/
structure PoolSettings where
  /-- How many connections are kept for later use. -/
  maxPoolSize : Nat := 10
  connectTimeout : Duration := .ofSecs 2
  /-- Bounds every read and every write. -/
  readTimeout : Duration := .ofSecs 2
  /-- The age from which a connection is not used again. -/
  connectionTtl : Duration := .ofSecs 300
deriving Repr, DecidableEq

/-- How an endpoint that was lost is looked for. -/
structure HealthSettings where
  /-- The time between two attempts to reach it. -/
  recheckInterval : Duration := .ofSecs 5
  /-- How long it must have been reachable before it is used again. -/
  settleDelay : Duration := .ofSecs 3
  probeTimeout : Duration := .ofSecs 1
deriving Repr, DecidableEq

/-- How keys and texts travel. -/
structure EncodingSettings where
  base64Keys : Bool := true
  serializeStrings : Bool := false
deriving Repr, DecidableEq

/-- Whether and how values are compressed. -/
structure CompressionSettings where
  enabled : Bool := true
  /-- Only longer values are compressed. -/
  minLength : Nat := CompressionStrategy.defaultMinLength
  compressor : CompressorId := .deflate
deriving Repr, DecidableEq

/-- The settings of a client. -/
structure Config where
  endpoints : List String := []
  pool : PoolSettings := {}
  health : HealthSettings := {}
  encoding : EncodingSettings := {}
  compression : CompressionSettings := {}
  /-- Whether the traffic is written to the log. -/
  dumpStream : Bool := false
deriving Repr, DecidableEq

namespace Config

/-- The settings that must not be a duration of no length. -/
def durations (c : Config) : List (String × Duration) :=
  [("pool.connect_timeout", c.pool.connectTimeout), ("pool.read_timeout", c.pool.readTimeout),
   ("health.recheck_interval", c.health.recheckInterval),
   ("health.probe_timeout", c.health.probeTimeout)]

/-- The complaint about a duration of no length. -/
def noLength (name : String) : ConfigError := .invalidSetting name "must be greater than zero"

/-- Refuses settings that no client can run with. -/
def validate (c : Config) : Except ConfigError Unit :=
  if c.endpoints = [] then .error .noEndpoints
  else if c.pool.maxPoolSize = 0 then
    .error (.invalidSetting "pool.max_pool_size" "must be at least 1")
  else match c.durations.find? (·.2.isZero) with
    | some (name, _) => .error (noLength name)
    | none => .ok ()

end Config

end TagStore
