import TagStore.Client
import TagStore.Program.Invocation

/-!
# Running the program

Each command runs one operation of a client and prints what it brings, a line for each item. The
exit status tells whether something was found; a command that stores nothing because the key is
taken counts as one that found nothing. An error ends the program with a report of its causes.
-/

namespace TagStore.Program

/-- What a command brings: the exit status and the lines it prints. -/
structure Output where
  status : Nat
  lines : List String
deriving Repr, DecidableEq

/-- An error and what caused it, the nearest cause first. -/
structure Failure where
  message : String
  causes : List String
deriving Repr, DecidableEq

/-- What a program leaves behind. -/
structure Outcome where
  status : Nat
  stdout : String
  stderr : String
deriving Repr, DecidableEq

namespace Failure

/-- The causes, one to a line, numbered if there are several. -/
def causeLines : List String → List String
  | [c] => ["    " ++ c]
  | cs => cs.zipIdx.map fun (c, i) => s!"    {i}: {c}"

/-- The report of an error. -/
def report (f : Failure) : String :=
  "Error: " ++ f.message ++ "\n" ++
    match f.causes with
    | [] => ""
    | cs => "\nCaused by:\n" ++ String.join ((causeLines cs).map (· ++ "\n"))

/-- The error of an operation. -/
def ofClient (e : ClientError) : Failure :=
  ⟨e.message, match e with
    | .config c => [c.message]
    | .io _ c => [c.text]
    | _ => []⟩

/-- The error of settings that no client can run with. -/
def ofConfig (e : ConfigError) : Failure :=
  ⟨"invalid client configuration", [(ClientError.config e).message, e.message]⟩

/-- The error of a value that should be JSON. -/
def notJson : Failure := ⟨"the value is not valid JSON", []⟩

end Failure

/-- Success without anything to print. -/
def Output.done : Output := ⟨0, []⟩

/-- Prints items; none at all count as nothing found. -/
def Output.found (lines : List String) : Output := ⟨if lines = [] then 1 else 0, lines⟩

/-- The state of a client as JSON over several lines. -/
def statsText {ω : Type} (maxValueSize : Option Nat) (p : Pool ω) : String :=
  let member (name text : String) : String := Json.renderString name ++ ": " ++ text
  let s := p.stats
  let pool := Json.bracketed 1 "\x7b" "\x7d"
    [member "live" (toString s.live), member "peak" (toString s.peak),
      member "idle" (toString s.idle)]
  let endpoints := Json.bracketed 1 "[" "]"
    (p.registry.nodes.map fun n => Json.bracketed 2 "\x7b" "\x7d"
      [member "address" (Json.renderString n.endpoint.address),
        member "offline" (if n.offline then "true" else "false")])
  let size := (maxValueSize.map toString).getD "null"
  Json.bracketed 0 "\x7b" "\x7d"
    [member "max_value_size" size, member "pool" pool, member "endpoints" endpoints]

/-- The line of a key or value with what belongs to it. -/
def pairLine (first second : String) : String := first ++ "\t" ++ second

/-- What an operation brings, made into output. -/
def answer {σ α : Type} (render : α → Output) (x : Except ClientError α × σ) :
    Except Failure Output × σ :=
  ((x.1.map render).mapError .ofClient, x.2)

/-- Runs an operation that stores a value. -/
def storing {σ α : Type} (w : WriteArguments) (render : α → Output)
    (store : Option Value → σ → Except ClientError α × σ) (c : σ) : Except Failure Output × σ :=
  match w.value? with
  | none => (.error .notJson, c)
  | some v => answer render (store (some v) c)

/-- Runs a command. -/
def Command.run {ω : Type} (net : Network ω) (c : Client ω) :
    Command → Except Failure Output × Client ω
  | .get key => answer (fun v => .found (v.toList.map Value.display)) (c.get net key)
  | .set w => storing w (fun _ => .done) (fun v c => c.set net w.key v w.options) c
  | .add w =>
    storing w (fun added => if added then ⟨0, ["added"]⟩ else ⟨1, ["exists"]⟩)
      (fun v c => c.add net w.key v w.options) c
  | .remove key => answer (fun v => .found (v.toList.map Value.display)) (c.remove net key)
  | .tagKeys tag includeDeleted => answer .found (c.getTagKeys net tag includeDeleted)
  | .pairs tag =>
    answer (fun ps => .found (ps.map fun p => pairLine p.key p.value.display))
      (c.getPairsByTag net tag)
  | .multiGet keys => answer (fun vs => ⟨0, vs.map Value.display⟩) (c.getMulti net keys)
  | .versionedGet key =>
    answer (fun v => .found (v.toList.map fun v => pairLine v.value.display v.version))
      (c.getVersioned net key)
  | .versionedSet w token =>
    storing w (fun _ => .done) (fun v c => c.setVersioned net w.key v token w.options) c
  | .version => answer (fun v => ⟨0, [v]⟩) (c.version net)
  | .init => answer (fun n => ⟨0, [toString n]⟩) (c.init net)
  | .stats =>
    let (size, c) := c.init net
    (.ok ⟨0, [statsText size.toOption c.pool]⟩, c)

/-- The name of the program. -/
def name : String := "okuyama"

/-- The name of the program and its version. -/
def versionText : String := name ++ " 0.1.0"

/-- How the program is called. -/
def usageText : String :=
  s!"Usage: {name} --endpoints HOST:PORT[,HOST:PORT..] [OPTIONS] COMMAND\n\n" ++
    "Commands: " ++ Json.joined ", " commandNames ++ "\n\n" ++
    "Options: --pool-size N, --connect-timeout-ms N, --read-timeout-ms N, --raw-keys,\n" ++
    "  --no-compression, --compressor deflate|lz4, --dump-stream, --log-format text|json,\n" ++
    "  --help, --version\n"

/-- What the program leaves behind where the command line is not carried out. -/
def Halt.outcome : Halt → Outcome
  | usage => ⟨2, "", usageText⟩
  | help => ⟨0, usageText, ""⟩
  | version => ⟨0, versionText ++ "\n", ""⟩

/-- What the program leaves behind after a command. -/
def Outcome.ofResult : Except Failure Output → Outcome
  | .ok o => ⟨o.status, String.join (o.lines.map (· ++ "\n")), ""⟩
  | .error f => ⟨1, "", f.report⟩

/-- Runs the program over a network. -/
def run {ω : Type} (net : Network ω) (args : List String) (env : Environment) (s : ω) :
    Outcome × ω :=
  match Invocation.read args env with
  | .error h => (h.outcome, s)
  | .ok inv =>
    match Client.build (inv.connecting.toConfig env) {} s with
    | .error e => (.ofResult (.error (.ofConfig e)), s)
    | .ok c =>
      let (result, c) := inv.command.run net c
      (.ofResult result, c.pool.net)

end TagStore.Program
