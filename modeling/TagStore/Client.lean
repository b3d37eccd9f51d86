import TagStore.Client.Exchange
import TagStore.Client.Profile

/-!
# The client

A client stores values under keys on a cluster of master nodes and looks them up by key or by tag.
Each operation checks what it is given and writes its request once, and then runs one exchange.
-/

namespace TagStore

/-- A client, with the network that it runs over. -/
structure Client (ω : Type) where
  profile : Profile
  pool : Pool ω

/-- What may be given to a client beside its settings: compressors, when to compress, how objects
are written, and whether the traffic is put on record. -/
structure ClientParts where
  compressors : Option CompressorRegistry := none
  strategy : Option CompressionStrategy := none
  objects : Option ObjectCodec := none
  watched : Bool := false

namespace Client

variable {ω α : Type}

/-- When values are compressed: as given, or else as the settings say, which may name only a
compressor that there is. -/
def strategyOf (config : Config) (compressors : CompressorRegistry)
    (given : Option CompressionStrategy) : Except ConfigError CompressionStrategy :=
  match given with
  | some s => .ok s
  | none =>
    if config.compression.enabled then
      let id := config.compression.compressor
      match compressors.get? id with
      | some _ => .ok (.threshold config.compression.minLength id)
      | none =>
        .error (.invalidSetting "compression.compressor"
          s!"no compressor registered with id {id.text}")
    else .ok .never

/-- A client with the given settings and parts, which has not been in contact with any node. -/
def build (config : Config) (parts : ClientParts) (net : ω) : Except ConfigError (Client ω) := do
  config.validate
  let compressors := parts.compressors.getD .standard
  let strategy ← strategyOf config compressors parts.strategy
  let registry ← Registry.ofEndpoints config.endpoints config.health
  pure
    { profile :=
        { keys := if config.encoding.base64Keys then .base64 else .raw
          payload :=
            ⟨compressors, strategy, parts.objects.getD .json, config.encoding.serializeStrings⟩
          maxValueSize := none }
      pool := .empty config.pool (parts.watched || config.dumpStream) registry net }

/-- Runs an exchange. -/
def exchange (net : Network ω) (x : Exchange α) (c : Client ω) :
    Except ClientError α × Client ω :=
  let (a, pool) := x.run net c.pool
  (a, { c with pool })

/-- Runs the exchange of a request, unless the request cannot be written. -/
def perform (net : Network ω) (request : Except ClientError Request) (mode : RetryMode)
    (reply : {σ : Type} → Source σ → Replying σ α) (c : Client ω) :
    Except ClientError α × Client ω :=
  match request with
  | .error e => (.error e, c)
  | .ok r => c.exchange net ⟨r, mode, reply⟩

/-- Asks for the greatest size of a value and keeps it in mind; 0 means that there is none. -/
def init (net : Network ω) (c : Client ω) : Except ClientError Nat × Client ω :=
  match c.perform net (.ok Profile.init) .always Replying.init with
  | (.ok size, c) =>
    let known := if size = 0 then none else some size
    (.ok size, { c with profile := { c.profile with maxValueSize := known } })
  | (.error e, c) => (.error e, c)

/-- The version that a banner names. -/
def versionOf (banner : String) : Except ClientError String :=
  match Text.dropStart? "VERSION " banner with
  | none => .error (.ofServer banner)
  | some version => .ok ((Text.dropStart? "okuyama-" version).getD version)

/-- The version of the master node. -/
def version (net : Network ω) (c : Client ω) : Except ClientError String × Client ω :=
  let (banner, c) := c.perform net (.ok Profile.version) .always Replying.banner
  (banner.bind versionOf, c)

/-- Stores a value under a key. -/
def set (net : Network ω) (key : String) (value : Option Value) (options : StoreOptions)
    (c : Client ω) : Except ClientError Unit × Client ω :=
  c.perform net (c.profile.set key value options) .always Replying.set

/-- Stores a value under a key that is not taken; says whether it did. A second attempt would take
the first one's entry for another's, so it is made only if the request was never sent. -/
def add (net : Network ω) (key : String) (value : Option Value) (options : StoreOptions)
    (c : Client ω) : Except ClientError Bool × Client ω :=
  c.perform net (c.profile.add key value options) .requestStage Replying.add

/-- The value of a key. -/
def get (net : Network ω) (key : String) (c : Client ω) :
    Except ClientError (Option Value) × Client ω :=
  c.perform net (c.profile.get key) .always (Replying.get c.profile.payload)

/-- Takes a key away; gives the value it had. -/
def remove (net : Network ω) (key : String) (c : Client ω) :
    Except ClientError (Option Value) × Client ω :=
  c.perform net (c.profile.remove key) .always (Replying.remove c.profile.payload)

/-- The keys that carry a tag. -/
def getTagKeys (net : Network ω) (tag : String) (includeDeleted : Bool) (c : Client ω) :
    Except ClientError (List String) × Client ω :=
  c.perform net (Profile.getTagKeys tag includeDeleted) .always
    (Replying.getTagKeys c.profile.keys)

/-- The value of a key and its version. -/
def getVersioned (net : Network ω) (key : String) (c : Client ω) :
    Except ClientError (Option VersionedValue) × Client ω :=
  c.perform net (c.profile.getVersioned key) .always (Replying.getVersioned c.profile.payload)

/-- Stores a value under a key whose entry still has a version. A second attempt would find the
version of the first, so it is made only if the request was never sent. -/
def setVersioned (net : Network ω) (key : String) (value : Option Value) (version : String)
    (options : StoreOptions) (c : Client ω) : Except ClientError Unit × Client ω :=
  c.perform net (c.profile.setVersioned key value version options) .requestStage
    Replying.setVersioned

/-- The values of several keys; for no keys nothing is asked. -/
def getMulti (net : Network ω) (keys : List String) (c : Client ω) :
    Except ClientError (List Value) × Client ω :=
  if keys = [] then (.ok [], c)
  else c.perform net (c.profile.getMulti keys) .always (Replying.getMulti c.profile.payload)

/-- The keys that carry a tag and their values. -/
def getPairsByTag (net : Network ω) (tag : String) (c : Client ω) :
    Except ClientError (List Pair) × Client ω :=
  c.perform net (Profile.getPairsByTag tag) .always
    (Replying.getPairsByTag c.profile.keys c.profile.payload)

/-- Whether an address can be reached within the time of a probe. -/
def check (net : Network ω) (address : String) (c : Client ω) : Bool × Client ω :=
  match net.reach address c.pool.net with
  | .accepts => (true, c)
  | .refuses => (false, c)
  | .silent =>
    let limit := c.pool.registry.schedule.settings.probeTimeout
    (false, { c with pool := { c.pool with net := net.wait limit c.pool.net } })

end Client

end TagStore
