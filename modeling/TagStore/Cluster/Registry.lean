import TagStore.Cluster.Endpoint
import TagStore.Cluster.Probe

/-!
# The registry of endpoints

The endpoints of a client in a fixed order, with a cursor that goes round them. An endpoint that
was lost is passed over until its probe, or a connection that was made all the same, brings it
back; while all are lost, the one that was chosen longest ago is tried. An endpoint is offline just
as long as it holds a probe, and only the probe that it holds can bring it back.
-/

namespace TagStore

/-- An endpoint in the registry. -/
structure Node where
  endpoint : Endpoint
  offline : Bool
  /-- When it was last chosen; 0 if never. -/
  lastTried : Nat
  /-- The number of the probe that may bring it back. -/
  probe : Option Nat
deriving Repr, DecidableEq

/-- The endpoints of a client. -/
structure Registry where
  nodes : List Node
  /-- Where the search for the next endpoint starts, counted on without end. -/
  cursor : Nat
  /-- How often an endpoint was chosen. -/
  ticks : Nat
  schedule : ProbeSchedule
  probes : List Probe
  nextProbe : Nat

namespace Registry

/-- The endpoints that texts write, or the first text that writes none. -/
def readAll : List String → Except ConfigError (List Endpoint)
  | [] => .ok []
  | s :: ss =>
    match Endpoint.read s with
    | .error f => .error (.invalidEndpoint s f.message)
    | .ok e => (readAll ss).map (e :: ·)

/-- A registry of the given endpoints, all of them online. -/
def ofEndpoints (addresses : List String) (health : HealthSettings) :
    Except ConfigError Registry :=
  if addresses = [] then .error .noEndpoints
  else if h : 0 < health.recheckInterval.nanos then
    (readAll addresses).map fun es =>
      { nodes := es.map fun e => ⟨e, false, 0, none⟩
        cursor := 0
        ticks := 0
        schedule := ⟨health, h⟩
        probes := []
        nextProbe := 0 }
  else .error (Config.noLength "health.recheck_interval")

/-- How many endpoints there are. -/
def size (r : Registry) : Nat := r.nodes.length

/-- The address of the endpoint at a place. -/
def address (r : Registry) (i : Nat) : String :=
  ((r.nodes[i]?).map (·.endpoint.address)).getD ""

/-- Whether the endpoint at a place is offline. -/
def isOffline (r : Registry) (i : Nat) : Bool := ((r.nodes[i]?).map (·.offline)).getD false

/-- The places of the endpoints that are offline. -/
def offline (r : Registry) : List Nat := (List.range r.size).filter r.isOffline

/-- How many endpoints are not offline. -/
def onlineCount (r : Registry) : Nat := r.nodes.countP (!·.offline)

/-- The place of the endpoint chosen longest ago, the first of several. -/
def stalest (r : Registry) : Nat :=
  let stamps := r.nodes.map (·.lastTried)
  stamps.idxOf (stamps.min?.getD 0)

/-- Notes that the endpoint at a place was chosen. -/
def stamp (r : Registry) (i : Nat) : Registry :=
  { r with
    nodes := r.nodes.modify i fun n => { n with lastTried := r.ticks + 1 }
    ticks := r.ticks + 1 }

/-- How far from the cursor the next endpoint stands that is not offline. -/
def distance? (r : Registry) : Option Nat :=
  (List.range r.size).find? fun k => !r.isOffline ((r.cursor + k) % r.size)

/-- Chooses an endpoint: the next one that is not offline, or else the one chosen longest ago. -/
def next (r : Registry) : Nat × Registry :=
  match r.distance? with
  | some k =>
    let i := (r.cursor + k) % r.size
    (i, stamp { r with cursor := r.cursor + 1 + k } i)
  | none => (r.stalest, stamp { r with cursor := r.cursor + 1 } r.stalest)

/-- Takes the endpoint at a place out of use and starts its probe; says whether it was in use. Where
no probe can run it stays in use. -/
def markOffline (r : Registry) (canProbe : Bool) (now : Nat) (i : Nat) : Bool × Registry :=
  if r.isOffline i || !canProbe || r.size ≤ i then (false, r)
  else
    (true,
      { r with
        nodes := r.nodes.modify i fun n => { n with offline := true, probe := some r.nextProbe }
        probes := ⟨r.nextProbe, i, .start now⟩ :: r.probes
        nextProbe := r.nextProbe + 1 })

/-- Puts the endpoint at a place back into use and ends its probe. -/
def markOnline (r : Registry) (i : Nat) : Registry :=
  let held := (r.nodes[i]?).bind (·.probe)
  { r with
    nodes := r.nodes.modify i fun n => { n with offline := false, probe := none }
    probes := r.probes.filter fun p => some p.id ≠ held }

/-- The end of a probe, which puts its endpoint back into use if the endpoint still holds it. -/
def finishProbe (r : Registry) (p : Probe) : Registry :=
  let probes := r.probes.filter (·.id ≠ p.id)
  if (r.nodes[p.node]?).bind (·.probe) = some p.id then
    { r with
      nodes := r.nodes.modify p.node fun n => { n with offline := false, probe := none }
      probes }
  else { r with probes }

/-- Lets a probe do what is due before `limit`. -/
def runProbe (reach : String → Reach) (limit : Nat) (r : Registry) (p : Probe) : Registry :=
  match p.phase.advance r.schedule (reach (r.address p.node)) limit with
  | some phase =>
    { r with probes := r.probes.map fun q => if q.id = p.id then { q with phase } else q }
  | none => r.finishProbe p

/-- Lets all probes do what is due before `limit`, while addresses are as reachable as `reach`
says. -/
def runProbes (reach : String → Reach) (limit : Nat) (r : Registry) : Registry :=
  r.probes.foldl (runProbe reach limit) r

/-- The text that shows the endpoint at a place with its state. -/
def describe (r : Registry) (i : Nat) : String :=
  let offline := if r.isOffline i then "true" else "false"
  s!"Endpoint \x7b index: {i}, address: {Text.quote (r.address i)}, offline: {offline}, .. \x7d"

end Registry

end TagStore
