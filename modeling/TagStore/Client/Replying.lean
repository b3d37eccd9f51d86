import TagStore.Client.Error
import TagStore.Wire.Reading

/-!
# The replies to a client

Most replies are one line: the number of the operation, a status, and what the operation brings or
the server's complaint. Two operations are answered by any number of such lines and a closing one.
Every line is read to its end.
-/

namespace TagStore

open Wire

/-- A step of reading a reply on behalf of a client. -/
abbrev Replying (σ : Type) (α : Type) := ExceptT ClientError (StateM (Reader σ)) α

namespace Replying

variable {σ : Type}

/-- A step of reading, whose failures belong to the reply. -/
def lift {α : Type} (m : Reading σ α) : Replying σ α := fun r =>
  match m r with
  | (.ok a, r) => (.ok a, r)
  | (.error e, r) => (.error (.ofProtocol .response e), r)

/-- The outcome of a decision about what was read. -/
def ofExcept {α : Type} : Except ClientError α → Replying σ α
  | .ok a => pure a
  | .error e => throw e

/-- What follows the status of a reply of one line: what the operation brings, or what a complaint
means; a complaint that is absent is empty. -/
def body {α : Type} (src : Source σ) (success : Reading σ α)
    (complaint : String → Except ClientError α) : Status → Replying σ α
  | .ok => lift success
  | .failed => do
    let text ← lift (Reading.string src .raw)
    ofExcept (complaint (text.getD ""))

/-- A reply of one line. -/
def single {α : Type} (src : Source σ) (op : Opcode) (success : Reading σ α)
    (complaint : String → Except ClientError α) : Replying σ α := do
  lift (Reading.expectOpcode src op)
  let status ← lift (Reading.status src)
  let a ← body src success complaint status
  lift (Reading.finish src)
  pure a

/-- A complaint is an error. -/
def refused {α : Type} (text : String) : Except ClientError α := .error (.ofServer text)

/-- An empty complaint means that there is nothing. -/
def absentOr {α : Type} (nothing : α) (text : String) : Except ClientError α :=
  if text = "" then .ok nothing else refused text

/-- The complaint of a write that came too late. -/
def versionConflict : String := "NG:Data has already been updated"

/-- A complaint about a key that is taken means that nothing was added. -/
def notAdded (text : String) : Except ClientError Bool :=
  if Text.starts FailureKind.alreadyExistsStart text then .ok false else refused text

/-- A complaint about a write that came too late has an error of its own. -/
def notCurrent (text : String) : Except ClientError Unit :=
  if text = versionConflict then .error (.versionConflict text) else refused text

/-- The reply with the greatest size of a value. -/
def init (src : Source σ) : Replying σ Nat := single src .init (Reading.number src) refused

/-- The reply with the version of the node, which has no status. -/
def banner (src : Source σ) : Replying σ String := do
  lift (Reading.expectOpcode src .masterNodeVersion)
  let text ← lift (Reading.string src .raw)
  lift (Reading.finish src)
  pure (text.getD "")

/-- The reply to a value that was stored. -/
def set (src : Source σ) : Replying σ Unit := single src .set (pure ()) refused

/-- The reply to a value that was to be stored under a new key. -/
def add (src : Source σ) : Replying σ Bool := single src .add (pure true) notAdded

/-- The reply to a value that was to be stored in place of another. -/
def setVersioned (src : Source σ) : Replying σ Unit :=
  single src .setVersioned (pure ()) notCurrent

/-- The reply with the value of a key. -/
def get (codec : PayloadCodec) (src : Source σ) : Replying σ (Option Value) :=
  single src .get (Reading.value src codec) (absentOr none)

/-- The reply with the value that a key had. -/
def remove (codec : PayloadCodec) (src : Source σ) : Replying σ (Option Value) :=
  single src .remove (Reading.value src codec) (absentOr none)

/-- A value and its version; an absent version is empty. -/
def versioned (codec : PayloadCodec) (src : Source σ) : Reading σ (Option VersionedValue) := do
  let value ← Reading.value src codec
  let version ← Reading.string src .raw
  pure (value.map fun v => ⟨v, version.getD ""⟩)

/-- The reply with the value of a key and its version. -/
def getVersioned (codec : PayloadCodec) (src : Source σ) : Replying σ (Option VersionedValue) :=
  single src .getVersioned (versioned codec src) (absentOr none)

/-- The reply with the keys that carry a tag. -/
def getTagKeys (keys : Encoding) (src : Source σ) : Replying σ (List String) :=
  single src .getTagKeys (Reading.strings src keys) (absentOr [])

/-- What follows the status of a line of several: what it brings, or a complaint that is passed
over. -/
def lineBody {α : Type} (src : Source σ) (success : Reading σ (Option α)) :
    Status → Reading σ (Option α)
  | .ok => success
  | .failed => do
    let _ ← Reading.string src .raw
    pure none

/-- What follows the number of the operation in a line of several. -/
def lineRest {α : Type} (src : Source σ) (success : Reading σ (Option α)) :
    Reading σ (Option α) := do
  let status ← Reading.status src
  let a ← lineBody src success status
  Reading.finish src
  pure a

/-- The next line of several, unless it is the closing one. -/
def line {α : Type} (src : Source σ) (op : Opcode) (success : Reading σ (Option α)) :
    Reading σ (Option (Option α)) := do
  if ← Reading.block src op then
    let a ← lineRest src success
    pure (some a)
  else pure none

theorem shrinks_lineRest {α : Type} {src : Source σ} {success : Reading σ (Option α)}
    (h : Reading.Shrinks src success) : Reading.Shrinks src (lineRest src success) := by
  refine (Reading.shrinks_parsed src _).bind fun status => Reading.Shrinks.bind ?_ fun a =>
    (Reading.shrinks_finish src).bind fun _ => Reading.shrinks_pure src a
  cases status with
  | ok => exact h
  | failed => exact (Reading.shrinks_parsed src _).bind fun _ => Reading.shrinks_pure src none

/-- A line that is not the closing one takes some bytes. -/
theorem load_line {α : Type} {src : Source σ} {op : Opcode} {success : Reading σ (Option α)}
    (hs : Reading.Shrinks src success) {r r' : Reader σ} {a : Option α}
    (h : line src op success r = (.ok (some a), r')) : r'.load src < r.load src := by
  rw [line, Reading.bind_run] at h
  cases hb : Reading.block src op r with
  | mk x r₁ =>
    rw [hb] at h
    cases x with
    | error e => cases h
    | ok more =>
      have h1 := Reading.load_parsed src _ hb
      cases more with
      | false => cases h
      | true =>
        have h2 := shrinks_lineRest hs r₁
        simp only [if_true] at h
        rw [Reading.bind_run] at h
        cases hl : lineRest src success r₁ with
        | mk y r₂ =>
          rw [hl] at h h2
          cases y with
          | error e => cases h
          | ok b =>
            cases h
            exact Nat.lt_of_le_of_lt h2 h1

/-- The lines up to the closing one, without those that bring nothing; `acc` holds those before,
the last first. -/
def linesFrom {α : Type} (src : Source σ) (op : Opcode) (success : Reading σ (Option α))
    (hs : Reading.Shrinks src success) (acc : List α) (r : Reader σ) :
    Except ProtocolError (List α) × Reader σ :=
  match _h : line src op success r with
  | (.error e, r') => (.error e, r')
  | (.ok none, r') => (.ok acc.reverse, r')
  | (.ok (some a), r') => linesFrom src op success hs (a.toList ++ acc) r'
termination_by r.load src
decreasing_by exact load_line hs _h

/-- A reply of several lines. -/
def several {α : Type} (src : Source σ) (op : Opcode) (success : Reading σ (Option α))
    (hs : Reading.Shrinks src success) : Replying σ (List α) :=
  lift (linesFrom src op success hs [])

/-- The reply with the values of several keys. -/
def getMulti (codec : PayloadCodec) (src : Source σ) : Replying σ (List Value) :=
  several src .getMulti (Reading.value src codec) (Reading.shrinks_parsed src _)

/-- A key and its value, if neither is absent. -/
def pair (keys : Encoding) (codec : PayloadCodec) (src : Source σ) : Reading σ (Option Pair) := do
  let key ← Reading.string src keys
  let value ← Reading.value src codec
  pure (match key, value with
    | some key, some value => some ⟨key, value⟩
    | _, _ => none)

theorem shrinks_pair (keys : Encoding) (codec : PayloadCodec) (src : Source σ) :
    Reading.Shrinks src (pair keys codec src) :=
  (Reading.shrinks_parsed src _).bind fun _ =>
    (Reading.shrinks_parsed src _).bind fun _ => Reading.shrinks_pure src _

/-- The reply with the keys that carry a tag and their values. -/
def getPairsByTag (keys : Encoding) (codec : PayloadCodec) (src : Source σ) :
    Replying σ (List Pair) :=
  several src .getPairsByTag (pair keys codec src) (shrinks_pair keys codec src)

end Replying

end TagStore
