import TagStore.Client.StoreOptions
import TagStore.Config.Environment
import TagStore.Json.Parser
import TagStore.Program.Arguments
import TagStore.Value

/-!
# What a command line asks for

A command, how to reach the nodes, and the form of the log. How to reach the nodes is given before
the command; what the command line leaves out of it, variables of the environment may give, and
those must then be well formed. All other settings come from the environment alone, as
`Config.ofEnvironment` reads them.
-/

namespace TagStore.Program

/-- The form of the log. -/
inductive LogFormat
  | text
  | json
deriving Repr, DecidableEq

/-- What is stored: the key, the text of the value, whether it is JSON, the tags and the seconds
until it is dropped. -/
structure WriteArguments where
  key : String
  text : String
  json : Bool
  tags : List String
  expire : Nat
deriving Repr, DecidableEq

/-- A command. -/
inductive Command
  | get (key : String)
  | set (w : WriteArguments)
  | add (w : WriteArguments)
  | remove (key : String)
  | tagKeys (tag : String) (includeDeleted : Bool)
  | pairs (tag : String)
  | multiGet (keys : List String)
  | versionedGet (key : String)
  | versionedSet (w : WriteArguments) (version : String)
  | version
  | init
  | stats
deriving Repr, DecidableEq

/-- How to reach the nodes. -/
structure Connecting where
  endpoints : List String
  poolSize : Nat
  connectTimeout : Duration
  readTimeout : Duration
  rawKeys : Bool
  noCompression : Bool
  compressor : CompressorId
  dumpStream : Bool
deriving Repr, DecidableEq

/-- What a command line asks for. -/
structure Invocation where
  connecting : Connecting
  logFormat : LogFormat
  command : Command
deriving Repr, DecidableEq

/-- The value to store, unless it should be JSON and is none. -/
def WriteArguments.value? (w : WriteArguments) : Option Value :=
  if w.json then (Json.parse? w.text).map .object else some (.text w.text)

/-- The options of the write. -/
def WriteArguments.options (w : WriteArguments) : StoreOptions := ⟨w.tags, w.expire⟩

/-- The settings that a command line and an environment give. -/
def Connecting.toConfig (c : Connecting) (env : Environment) : Config :=
  let given := Config.ofEnvironment env
  { given with
    endpoints := c.endpoints
    pool :=
      { given.pool with
        maxPoolSize := c.poolSize
        connectTimeout := c.connectTimeout
        readTimeout := c.readTimeout }
    encoding := { given.encoding with base64Keys := !c.rawKeys }
    compression :=
      { given.compression with
        enabled := !c.noCompression
        compressor := c.compressor }
    dumpStream := c.dumpStream }

/-- The number that a value writes. -/
def number? (s : String) : Option Nat := Text.unsigned? Text.maxU64 s.toList

/-- The truth value that a value writes. -/
def bool? (s : String) : Option Bool :=
  if s = "true" then some true else if s = "false" then some false else none

/-- The form of the log that a value names. -/
def logFormat? (s : String) : Option LogFormat :=
  if s = "text" then some .text else if s = "json" then some .json else none

/-- The compressor that a value names. -/
def compressor? (s : String) : Option CompressorId :=
  if s = "deflate" then some .deflate else if s = "lz4" then some .lz4 else none

/-- A switch that takes one value of some form. -/
def Switch.reading {α : Type} (name : String) (read : String → Option α) : Switch :=
  ⟨name, none, .value (fun s => (read s).isSome) false⟩

/-- A switch that takes any value, as often as it is given. -/
def Switch.repeated (name : String) (short : Char) : Switch :=
  ⟨name, some short, .value (fun _ => true) true⟩

/-- A switch that is there or not. -/
def Switch.flag (name : String) : Switch := ⟨name, none, .flag⟩

/-- The switches of every list of arguments. -/
def commonSwitches : List Switch :=
  [.reading "log-format" logFormat?, ⟨"help", some 'h', .halt .help⟩]

/-- The names of the commands. -/
def commandNames : List String :=
  ["get", "set", "add", "remove", "tag-keys", "pairs", "multi-get", "versioned-get",
   "versioned-set", "version", "init", "stats"]

/-- The arguments before the command. -/
def mainGrammar : Grammar where
  switches := commonSwitches ++
    [⟨"version", some 'V', .halt .version⟩, .repeated "endpoints" 'e',
     .reading "pool-size" number?, .reading "connect-timeout-ms" number?,
     .reading "read-timeout-ms" number?, .flag "raw-keys", .flag "no-compression",
     .reading "compressor" compressor?, .flag "dump-stream"]
  words := 0
  anyWords := false
  commands := "help" :: commandNames

/-- The switches of the commands that store. -/
def writeSwitches : List Switch :=
  [.flag "json", .repeated "tag" 't', .reading "expire" number?]

/-- The arguments of a command. -/
def commandGrammar (name : String) : Grammar :=
  let make (switches : List Switch) (words : Nat) : Grammar :=
    ⟨commonSwitches ++ switches, words, false, []⟩
  match name with
  | "get" | "remove" | "pairs" | "versioned-get" => make [] 1
  | "set" | "add" => make writeSwitches 2
  | "versioned-set" => make (writeSwitches ++ [.reading "version" some]) 2
  | "tag-keys" => make [.flag "include-deleted"] 1
  | "multi-get" => ⟨commonSwitches, 0, true, []⟩
  | _ => make [] 0

/-- What is stored, from the arguments of a command. -/
def WriteArguments.ofScan? (st : Scan) : Option WriteArguments :=
  match st.words with
  | [text, key] =>
    some
      { key, text
        json := st.has "json"
        tags := st.values "tag"
        expire := ((st.value? "expire").bind number?).getD 0 }
  | _ => none

/-- The command of a name and its arguments. -/
def Command.ofScan? (name : String) (st : Scan) : Option Command :=
  match name, st.words with
  | "get", [key] => some (.get key)
  | "set", _ => (WriteArguments.ofScan? st).map .set
  | "add", _ => (WriteArguments.ofScan? st).map .add
  | "remove", [key] => some (.remove key)
  | "tag-keys", [tag] => some (.tagKeys tag (st.has "include-deleted"))
  | "pairs", [tag] => some (.pairs tag)
  | "multi-get", w :: ws => some (.multiGet (w :: ws).reverse)
  | "versioned-get", [key] => some (.versionedGet key)
  | "versioned-set", _ => do
    let w ← WriteArguments.ofScan? st
    let version ← st.value? "version"
    some (.versionedSet w version)
  | "version", [] => some .version
  | "init", [] => some .init
  | "stats", [] => some .stats
  | _, _ => none

/-- The parts of a list of endpoints, which are not trimmed here. -/
def splitEndpoints (s : String) : List String := (Text.splitAt ',' s.toList).map String.ofList

/-- A setting from a switch, or else from a variable, which must be well formed, or else the usual
one. -/
def setting {α : Type} (st : Scan) (env : Environment) (name var : String)
    (read : String → Option α) (usual : α) : Except Halt α :=
  match (st.value? name).or (env var) with
  | none => .ok usual
  | some s =>
    match read s with
    | some a => .ok a
    | none => .error .usage

/-- How to reach the nodes, from the arguments before the command and the environment. -/
def Connecting.ofScan (st : Scan) (env : Environment) : Except Halt Connecting := do
  let usual : PoolSettings := {}
  let endpoints ← match st.values "endpoints", env "OKUYAMA_ENDPOINTS" with
    | [], none => throw Halt.usage
    | [], some s => pure (splitEndpoints s)
    | ss, _ => pure (ss.flatMap splitEndpoints)
  let poolSize ← setting st env "pool-size" "OKUYAMA_POOL_SIZE" number? usual.maxPoolSize
  let millis (s : String) : Option Duration := (number? s).map Duration.ofMillis
  let connectTimeout ←
    setting st env "connect-timeout-ms" "OKUYAMA_CONNECT_TIMEOUT_MS" millis usual.connectTimeout
  let readTimeout ←
    setting st env "read-timeout-ms" "OKUYAMA_READ_TIMEOUT_MS" millis usual.readTimeout
  let dumpStream ←
    if st.has "dump-stream" then pure true
    else setting st env "dump-stream" "OKUYAMA_DUMP_STREAM" bool? false
  pure
    { endpoints, poolSize, connectTimeout, readTimeout, dumpStream
      rawKeys := st.has "raw-keys"
      noCompression := st.has "no-compression"
      compressor := ((st.value? "compressor").bind compressor?).getD .deflate }

/-- Why a request for help is not carried out: each word must name a command of the one before. -/
def helpOn : List String → Halt
  | [] => .help
  | name :: r =>
    if name = "help" then helpOn r
    else if commandNames.contains name && r.isEmpty then .help
    else .usage

/-- What a command line asks for in an environment. -/
def Invocation.read (args : List String) (env : Environment) : Except Halt Invocation := do
  let (st, rest) ← Scan.run mainGrammar false .start args
  match rest with
  | none => throw Halt.usage
  | some (name, args) =>
    if name = "help" then throw (helpOn args)
    let (own, _) ← Scan.run (commandGrammar name) false .start args
    let own ← own.resolve
    match Command.ofScan? name own with
    | none => throw Halt.usage
    | some command =>
      let st ← st.resolve
      let connecting ← Connecting.ofScan st env
      let format := (own.value? "log-format").or (st.value? "log-format")
      pure ⟨connecting, (format.bind logFormat?).getD .text, command⟩

end TagStore.Program
