/-!
# Reading a command line

A command line is a list of arguments: switches, their values, and words. A switch is given by its
long name behind two dashes or by its short name behind one; several short names may share a dash.
A value follows its switch as the next argument, or in the same one, where a long name needs an
equals sign in between and a short name may have one. Behind two lone dashes all arguments are
words. The first argument that names a command ends the list; what follows is the command's own.

A value in an argument of its own is examined only when the next switch or word comes, or the list
ends. Where the arguments ask for help or for the version, that is the outcome unless something
wrong was met before.
-/

namespace TagStore.Program

/-- Why a command line is not carried out: it means nothing, or it only asks for help or the
version. -/
inductive Halt
  | usage
  | help
  | version
deriving Repr, DecidableEq

/-- What a switch does: it is there or not; it takes a value, perhaps several times over; or it
ends everything. -/
inductive SwitchKind
  | flag
  | value (allowed : String → Bool) (repeats : Bool)
  | halt (h : Halt)

/-- A switch with its long name and its short one. -/
structure Switch where
  name : String
  short : Option Char
  kind : SwitchKind

/-- What may stand in a list of arguments: switches, a number of words or any number of them, and
the names of commands. -/
structure Grammar where
  switches : List Switch
  words : Nat
  anyWords : Bool
  commands : List String

/-- What has been read: the switches with their values, an empty one for flags; the words; and a
switch whose value is to come or is yet to be examined. The latest stand first. -/
structure Scan where
  given : List (String × String)
  words : List String
  pending : Option (Switch × Option String)

namespace Scan

/-- Nothing read. -/
def start : Scan := ⟨[], [], none⟩

/-- The values of a switch in order. -/
def values (st : Scan) (name : String) : List String :=
  ((st.given.filter (·.1 = name)).map (·.2)).reverse

/-- The value of a switch that is not repeated. -/
def value? (st : Scan) (name : String) : Option String := (st.values name).head?

/-- Whether a switch was given. -/
def has (st : Scan) (name : String) : Bool := (st.value? name).isSome

/-- Examines a switch with its value. -/
def accept (st : Scan) (s : Switch) (v : String) : Except Halt Scan :=
  let next : Scan := { st with given := (s.name, v) :: st.given }
  match s.kind with
  | .flag => if st.has s.name then .error .usage else .ok next
  | .value allowed repeats =>
    if !allowed v || (st.has s.name && !repeats) then .error .usage else .ok next
  | .halt h => .error h

/-- Examines the switch that is waiting for it. One without its value is an error. -/
def resolve (st : Scan) : Except Halt Scan :=
  match st.pending with
  | none => .ok st
  | some (_, none) => .error .usage
  | some (s, some v) => accept { st with pending := none } s v

/-- Whether the next argument is the value of a switch. -/
def awaits (st : Scan) : Bool :=
  match st.pending with
  | some (_, none) => true
  | _ => false

/-- Takes a switch that is complete. -/
def give (st : Scan) (s : Switch) (v : String) : Except Halt Scan :=
  st.resolve.bind fun st => st.accept s v

/-- Takes a switch whose value is the next argument. -/
def await (st : Scan) (s : Switch) : Except Halt Scan :=
  st.resolve.map fun st => { st with pending := some (s, none) }

/-- Takes a long name, with a value if there is an equals sign. -/
def long (g : Grammar) (st : Scan) (cs : List Char) : Except Halt Scan :=
  let name := String.ofList (cs.takeWhile (· ≠ '='))
  let attached := match cs.dropWhile (· ≠ '=') with
    | [] => none
    | _ :: v => some (String.ofList v)
  match g.switches.find? (·.name = name) with
  | none => .error .usage
  | some s =>
    match s.kind, attached with
    | .value _ _, some v => st.give s v
    | .value _ _, none => st.await s
    | _, some _ => .error .usage
    | _, none => st.give s ""

/-- Takes short names, the last of which may have its value behind it. -/
def short (g : Grammar) (st : Scan) : List Char → Except Halt Scan
  | [] => .ok st
  | c :: r =>
    match g.switches.find? (·.short = some c) with
    | none => .error .usage
    | some s =>
      match s.kind, r with
      | .value _ _, [] => st.await s
      | .value _ _, '=' :: v => st.give s (String.ofList v)
      | .value _ _, v => st.give s (String.ofList v)
      | _, r => (st.give s "").bind fun st => short g st r

/-- Takes a word. -/
def word (g : Grammar) (st : Scan) (a : String) : Except Halt Scan :=
  if g.anyWords || st.words.length < g.words then
    st.resolve.map fun st => { st with words := a :: st.words }
  else .error .usage

/-- Takes arguments up to the name of a command, which it gives with what follows; `onlyWords` says
that two lone dashes have been passed. -/
def run (g : Grammar) (onlyWords : Bool) (st : Scan) :
    List String → Except Halt (Scan × Option (String × List String))
  | [] => .ok (st, none)
  | a :: r =>
    if onlyWords then (st.word g a).bind fun st => run g true st r
    else if !st.awaits && g.commands.contains a then .ok (st, some (a, r))
    else match a.toList with
      | ['-', '-'] => run g true st r
      | '-' :: '-' :: cs => (st.long g cs).bind fun st => run g false st r
      | '-' :: c :: cs => (st.short g (c :: cs)).bind fun st => run g false st r
      | _ =>
        match st.pending with
        | some (s, none) => run g false { st with pending := some (s, some a) } r
        | _ => (st.word g a).bind fun st => run g false st r

end Scan

end TagStore.Program
