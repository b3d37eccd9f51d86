import TagStore.Config
import TagStore.Json.Parser
import TagStore.Text.Decimal

/-!
# Settings as JSON

A group of settings is an object. Its members come in any order, one that is left out keeps the
usual value, and one of a name that means nothing is passed over; no setting is given twice. A
group may also be an array of its settings in their usual order, of which the last may be left
out. A span of time must be given in full, in seconds and nanoseconds.
-/

namespace TagStore.Config

open Json

/-- One setting of a group: its name, how a text changes it, and its text. -/
structure Setting (α : Type) where
  name : String
  read : Tree → α → Option α
  write : α → String

/-- Takes the settings of an object in turn; `seen` names those given before. -/
def readMembers {α : Type} (settings : List (Setting α)) (seen : List String) (a : α) :
    List (Option String × Tree) → Option α
  | [] => some a
  | (none, _) :: _ => none
  | (some name, t) :: r =>
    match settings.find? (·.name = name) with
    | none => readMembers settings seen a r
    | some s =>
      if name ∈ seen then none
      else (s.read t a).bind fun a => readMembers settings (name :: seen) a r

/-- Takes the settings of an array by position. -/
def readItems {α : Type} (a : α) : List (Setting α) → List Tree → Option α
  | _, [] => some a
  | [], _ :: _ => none
  | s :: ss, t :: ts => (s.read t a).bind fun a => readItems a ss ts

/-- Reads a group of settings over the usual ones. -/
def readGroup {α : Type} (settings : List (Setting α)) (usual : α) : Tree → Option α
  | .object ms => readMembers settings [] usual ms
  | .array ts => readItems usual settings ts
  | _ => none

/-- The text of a group of settings. -/
def writeGroup {α : Type} (settings : List (Setting α)) (a : α) : String :=
  "\x7b" ++ joined "," (settings.map fun s => renderString s.name ++ ":" ++ s.write a) ++ "\x7d"

/-- A number at most `limit`. -/
def number? (limit : Nat) : Tree → Option Nat
  | .number (some (.whole n)) => if n ≤ limit then some n else none
  | _ => none

/-- A truth value. -/
def bool? : Tree → Option Bool
  | .bool b => some b
  | _ => none

/-- A list of texts. -/
def strings? : Tree → Option (List String)
  | .array ts => ts.mapM fun t => match t with
    | .string s => s
    | _ => none
  | _ => none

/-- The text of a truth value. -/
def boolText (b : Bool) : String := if b then "true" else "false"

/-- The text of a list of texts. -/
def stringsText (ss : List String) : String :=
  "[" ++ joined "," (ss.map renderString) ++ "]"

/-- The whole seconds and the nanoseconds of a span, as long as the former fit in 64 bits. -/
def durationOf? (secs nanos : Nat) : Option Duration :=
  if secs + nanos / 1000000000 ≤ Text.maxU64 then some ⟨secs * 1000000000 + nanos⟩ else none

/-- Reads a span of time. -/
def duration? : Tree → Option Duration
  | .object [(some "secs", s), (some "nanos", n)]
  | .object [(some "nanos", n), (some "secs", s)]
  | .array [s, n] => do
    let s ← number? Text.maxU64 s
    let n ← number? Text.maxU32 n
    durationOf? s n
  | _ => none

/-- The text of a span of time. -/
def durationText (d : Duration) : String :=
  "\x7b\"secs\":" ++ toString d.secs ++ ",\"nanos\":" ++ toString d.subNanos ++ "\x7d"

/-- The settings of the pool. -/
def poolSettings : List (Setting PoolSettings) :=
  [⟨"max_pool_size", fun t p => (number? Text.maxU64 t).map fun n => { p with maxPoolSize := n },
      fun p => toString p.maxPoolSize⟩,
   ⟨"connect_timeout", fun t p => (duration? t).map fun d => { p with connectTimeout := d },
      fun p => durationText p.connectTimeout⟩,
   ⟨"read_timeout", fun t p => (duration? t).map fun d => { p with readTimeout := d },
      fun p => durationText p.readTimeout⟩,
   ⟨"connection_ttl", fun t p => (duration? t).map fun d => { p with connectionTtl := d },
      fun p => durationText p.connectionTtl⟩]

/-- The settings of the search for lost endpoints. -/
def healthSettings : List (Setting HealthSettings) :=
  [⟨"recheck_interval", fun t h => (duration? t).map fun d => { h with recheckInterval := d },
      fun h => durationText h.recheckInterval⟩,
   ⟨"settle_delay", fun t h => (duration? t).map fun d => { h with settleDelay := d },
      fun h => durationText h.settleDelay⟩,
   ⟨"probe_timeout", fun t h => (duration? t).map fun d => { h with probeTimeout := d },
      fun h => durationText h.probeTimeout⟩]

/-- The settings of keys and texts. -/
def encodingSettings : List (Setting EncodingSettings) :=
  [⟨"base64_keys", fun t e => (bool? t).map fun b => { e with base64Keys := b },
      fun e => boolText e.base64Keys⟩,
   ⟨"serialize_strings", fun t e => (bool? t).map fun b => { e with serializeStrings := b },
      fun e => boolText e.serializeStrings⟩]

/-- The settings of compression. -/
def compressionSettings : List (Setting CompressionSettings) :=
  [⟨"enabled", fun t c => (bool? t).map fun b => { c with enabled := b },
      fun c => boolText c.enabled⟩,
   ⟨"min_length", fun t c => (number? Text.maxU64 t).map fun n => { c with minLength := n },
      fun c => toString c.minLength⟩,
   ⟨"compressor", fun t c => ((number? 255 t).bind CompressorId.ofNat?).map fun i =>
      { c with compressor := i }, fun c => c.compressor.text⟩]

/-- All settings, in their usual order. -/
def allSettings : List (Setting Config) :=
  [⟨"endpoints", fun t c => (strings? t).map fun es => { c with endpoints := es },
      fun c => stringsText c.endpoints⟩,
   ⟨"pool", fun t c => (readGroup poolSettings {} t).map fun p => { c with pool := p },
      fun c => writeGroup poolSettings c.pool⟩,
   ⟨"health", fun t c => (readGroup healthSettings {} t).map fun h => { c with health := h },
      fun c => writeGroup healthSettings c.health⟩,
   ⟨"encoding", fun t c => (readGroup encodingSettings {} t).map fun e => { c with encoding := e },
      fun c => writeGroup encodingSettings c.encoding⟩,
   ⟨"compression", fun t c => (readGroup compressionSettings {} t).map fun p =>
      { c with compression := p }, fun c => writeGroup compressionSettings c.compression⟩,
   ⟨"dump_stream", fun t c => (bool? t).map fun b => { c with dumpStream := b },
      fun c => boolText c.dumpStream⟩]

/-- The settings that a text gives. -/
def ofJson? (s : String) : Option Config := (Tree.read? s).bind (readGroup allSettings {})

/-- The text of settings. -/
def toJson (c : Config) : String := writeGroup allSettings c

end TagStore.Config
