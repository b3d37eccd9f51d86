import TagStore.Client
import TagStore.Proofs.Client.Decoding
import TagStore.Proofs.Except

/-!
# Operations

The operations of a client as data, so that one statement covers all of them and a run of a client
is a list of them. Whatever the operation, one of three things happens (`Operation.ran`): there is
nothing to ask for, the request cannot be written, or the request goes through one exchange. The
exchange of every operation decodes its reply as it would at hand (`Operation.followsAt_reply`).
-/

namespace TagStore

theorem Client.profile_perform {ω α : Type} (net : Network ω) (request : Except ClientError Request)
    (mode : RetryMode) (reply : {σ : Type} → Source σ → Replying σ α) (c : Client ω) :
    (c.perform net request mode reply).2.profile = c.profile := by
  unfold perform
  split <;> rfl

/-- An operation of a client, with the type of what it gives. -/
inductive Operation : Type → Type
  | init : Operation Nat
  | version : Operation String
  | set (key : String) (value : Option Value) (options : StoreOptions) : Operation Unit
  | add (key : String) (value : Option Value) (options : StoreOptions) : Operation Bool
  | get (key : String) : Operation (Option Value)
  | remove (key : String) : Operation (Option Value)
  | getTagKeys (tag : String) (includeDeleted : Bool) : Operation (List String)
  | getVersioned (key : String) : Operation (Option VersionedValue)
  | setVersioned (key : String) (value : Option Value) (token : String)
    (options : StoreOptions) : Operation Unit
  | getMulti (keys : List String) : Operation (List Value)
  | getPairsByTag (tag : String) : Operation (List Pair)

namespace Operation

variable {ω α : Type}

/-- Performs an operation. -/
def run (net : Network ω) (c : Client ω) : Operation α → Except ClientError α × Client ω
  | init => c.init net
  | version => c.version net
  | set key value options => c.set net key value options
  | add key value options => c.add net key value options
  | get key => c.get net key
  | remove key => c.remove net key
  | getTagKeys tag includeDeleted => c.getTagKeys net tag includeDeleted
  | getVersioned key => c.getVersioned net key
  | setVersioned key value token options => c.setVersioned net key value token options
  | getMulti keys => c.getMulti net keys
  | getPairsByTag tag => c.getPairsByTag net tag

/-- The request of an operation, unless it cannot be written. -/
def request (p : Profile) : Operation α → Except ClientError Request
  | init => .ok Profile.init
  | version => .ok Profile.version
  | set key value options => p.set key value options
  | add key value options => p.add key value options
  | get key => p.get key
  | remove key => p.remove key
  | getTagKeys tag includeDeleted => Profile.getTagKeys tag includeDeleted
  | getVersioned key => p.getVersioned key
  | setVersioned key value token options => p.setVersioned key value token options
  | getMulti keys => p.getMulti keys
  | getPairsByTag tag => Profile.getPairsByTag tag

/-- The number under which an operation is asked for. -/
def opcode : Operation α → Opcode
  | init => .init
  | version => .masterNodeVersion
  | set .. => .set
  | add .. => .add
  | get _ => .get
  | remove _ => .remove
  | getTagKeys .. => .getTagKeys
  | getVersioned _ => .getVersioned
  | setVersioned .. => .setVersioned
  | getMulti _ => .getMulti
  | getPairsByTag _ => .getPairsByTag

/-- Whether a second run of an operation would have another outcome than the first. -/
def isConditional : Operation α → Bool
  | add .. | setVersioned .. => true
  | _ => false

/-- After which failures an operation is tried again. -/
def mode (op : Operation α) : RetryMode := if op.isConditional then .requestStage else .always

/-- How the reply to an operation is decoded. -/
def reply (p : Profile) : Operation α → {σ : Type} → Source σ → Replying σ α
  | init, _, src => Replying.init src
  | version, _, src => Replying.banner src
  | set .., _, src => Replying.set src
  | add .., _, src => Replying.add src
  | get _, _, src => Replying.get p.payload src
  | remove _, _, src => Replying.remove p.payload src
  | getTagKeys .., _, src => Replying.getTagKeys p.keys src
  | getVersioned _, _, src => Replying.getVersioned p.payload src
  | setVersioned .., _, src => Replying.setVersioned src
  | getMulti _, _, src => Replying.getMulti p.payload src
  | getPairsByTag _, _, src => Replying.getPairsByTag p.keys p.payload src

/-- The exchange of an operation. -/
def exchange (p : Profile) (op : Operation α) (r : Request) : Exchange α :=
  ⟨r, op.mode, op.reply p⟩

/-- What an operation makes of a decoded reply. -/
def conclude : Operation α → α → Except ClientError α
  | version, banner => Client.versionOf banner
  | _, a => .ok a

theorem conclude_of_isConditional {op : Operation α} (h : op.isConditional = true) (a : α) :
    op.conclude a = .ok a := by
  cases op with
  | version => cases h
  | _ => rfl

/-- Whether an operation asks for nothing. -/
def isVoid : Operation α → Bool
  | getMulti [] => true
  | _ => false

/-- What an operation comes to. -/
inductive Ran (net : Network ω) (op : Operation α) (c : Client ω) :
    Except ClientError α × Client ω → Prop
  /-- Nothing is asked for. -/
  | void {a : α} : op.isVoid → Ran net op c (.ok a, c)
  /-- The request cannot be written. -/
  | unwritten {e : ClientError} : op.request c.profile = .error e → Ran net op c (.error e, c)
  /-- The request goes through one exchange. -/
  | exchanged {r : Request} {y : Except ClientError α} {pool : Pool ω} (profile : Profile) :
    op.isVoid = false → op.request c.profile = .ok r →
    (op.exchange c.profile r).run net c.pool = (y, pool) →
    Ran net op c (y.bind op.conclude, ⟨profile, pool⟩)

theorem ran_perform (net : Network ω) (op : Operation α) (c : Client ω) (hv : op.isVoid = false)
    (hc : ∀ a, op.conclude a = .ok a) :
    Ran net op c (c.perform net (op.request c.profile) op.mode (op.reply c.profile)) := by
  unfold Client.perform
  split
  · rename_i h
    exact .unwritten h
  · rename_i r h
    rcases hx : (op.exchange c.profile r).run net c.pool with ⟨y, pool⟩
    have hy : y.bind op.conclude = y := by
      cases y with
      | error e => rfl
      | ok a => exact hc a
    have hran := Ran.exchanged c.profile hv h hx
    rw [hy] at hran
    rw [Client.exchange, show Exchange.run net ⟨r, op.mode, op.reply c.profile⟩ c.pool = _ from hx]
    exact hran

/-- **Every operation runs through at most one exchange.** -/
theorem ran (net : Network ω) (op : Operation α) (c : Client ω) : Ran net op c (op.run net c) := by
  cases op with
  | init =>
    rcases hx : (init.exchange c.profile Profile.init).run net c.pool with ⟨e | n, pool⟩ <;>
    · have hran (profile : Profile) := Ran.exchanged (c := c) profile rfl rfl hx
      simp only [run, Client.init, Client.perform, Client.exchange]
      rw [show Exchange.run net ⟨Profile.init, .always, Replying.init⟩ c.pool = _ from hx]
      exact hran _
  | version =>
    rcases hx : (version.exchange c.profile Profile.version).run net c.pool with ⟨y, pool⟩
    have hran := Ran.exchanged (c := c) c.profile rfl rfl hx
    simp only [run, Client.version, Client.perform, Client.exchange]
    rw [show Exchange.run net ⟨Profile.version, .always, Replying.banner⟩ c.pool = _ from hx]
    exact hran
  | getMulti keys =>
    cases keys with
    | nil => exact .void rfl
    | cons key keys => exact ran_perform net (getMulti (key :: keys)) c rfl fun _ => rfl
  | set key value options => exact ran_perform net (set key value options) c rfl fun _ => rfl
  | add key value options => exact ran_perform net (add key value options) c rfl fun _ => rfl
  | get key => exact ran_perform net (get key) c rfl fun _ => rfl
  | remove key => exact ran_perform net (remove key) c rfl fun _ => rfl
  | getTagKeys tag d => exact ran_perform net (getTagKeys tag d) c rfl fun _ => rfl
  | getVersioned key => exact ran_perform net (getVersioned key) c rfl fun _ => rfl
  | setVersioned key value token options =>
    exact ran_perform net (setVersioned key value token options) c rfl fun _ => rfl
  | getPairsByTag tag => exact ran_perform net (getPairsByTag tag) c rfl fun _ => rfl

/-- What an operation gives is what it makes of what its exchange gives. -/
theorem result_run {net : Network ω} {op : Operation α} {c : Client ω} {r : Request}
    (hv : op.isVoid = false) (hr : op.request c.profile = .ok r) :
    (op.run net c).1 = ((op.exchange c.profile r).run net c.pool).1.bind op.conclude := by
  have hran := op.ran net c
  generalize op.run net c = y at hran ⊢
  cases hran with
  | void h => cases hv.symm.trans h
  | unwritten h => cases hr.symm.trans h
  | exchanged profile _ h hx =>
    obtain rfl := Except.ok.inj (hr.symm.trans h)
    rw [hx]

/-- What the exchange of an operation leaves in the pool is what the operation leaves there. -/
theorem pool_run {net : Network ω} {op : Operation α} {c : Client ω} {r : Request}
    (hv : op.isVoid = false) (hr : op.request c.profile = .ok r) :
    (op.run net c).2.pool = ((op.exchange c.profile r).run net c.pool).2 := by
  have hran := op.ran net c
  generalize op.run net c = y at hran ⊢
  cases hran with
  | void h => cases hv.symm.trans h
  | unwritten h => cases hr.symm.trans h
  | exchanged profile _ h hx =>
    obtain rfl := Except.ok.inj (hr.symm.trans h)
    rw [hx]

/-- Nothing happens if the request of an operation cannot be written. -/
theorem run_of_request_error {net : Network ω} {op : Operation α} {c : Client ω} {e : ClientError}
    (hv : op.isVoid = false) (he : op.request c.profile = .error e) :
    op.run net c = (.error e, c) := by
  have hran := op.ran net c
  generalize op.run net c = y at hran ⊢
  cases hran with
  | void h => cases hv.symm.trans h
  | unwritten h => rw [Except.error.inj (he.symm.trans h)]
  | exchanged _ _ h => cases he.symm.trans h

/-- **Only asking for the greatest size changes what a client knows.** -/
theorem profile_run_of_ne_init {net : Network ω} {op : Operation α} {c : Client ω}
    (h : op.opcode ≠ .init) : (op.run net c).2.profile = c.profile := by
  cases op with
  | init => exact absurd rfl h
  | version => exact Client.profile_perform net (.ok Profile.version) .always Replying.banner c
  | getMulti keys =>
    rw [run, Client.getMulti]
    split
    · rfl
    · exact Client.profile_perform net _ _ _ c
  | _ => exact Client.profile_perform net _ _ _ c

/-- A run of which a part of what it gives is known. -/
theorem exists_of_map {β : Type} {net : Network ω} {op : Operation α} {c : Client ω} {f : α → β}
    {b : β} (h : (op.run net c).1.map f = .ok b) :
    ∃ a c₁, op.run net c = (.ok a, c₁) ∧ f a = b := by
  obtain ⟨a, ha, hf⟩ := exists_of_map_ok h
  exact ⟨a, _, Prod.ext ha rfl, hf⟩

/-- **Every operation decodes its reply as it would at hand.** -/
theorem followsAt_reply (op : Operation α) (p : Profile) {σ : Type} (src : Source σ)
    (r : Reader σ) : Replying.FollowsAt src (op.reply p src) (op.reply p .ended) r := by
  cases op with
  | init =>
    exact Replying.followsAt_single _ (Reading.agreesAt_parsed _)
      Replying.isLateComplaint_refused r
  | version => exact Replying.followsAt_banner r
  | set =>
    exact Replying.followsAt_single _ (Reading.agreesAt_pure _)
      Replying.isLateComplaint_refused r
  | add =>
    exact Replying.followsAt_single _ (Reading.agreesAt_pure _)
      Replying.isLateComplaint_notAdded r
  | get | remove =>
    exact Replying.followsAt_single _ (Reading.agreesAt_parsed _)
      (Replying.isLateComplaint_absentOr _) r
  | getTagKeys =>
    exact Replying.followsAt_single _ (Reading.agreesAt_itemsFrom _ [])
      (Replying.isLateComplaint_absentOr _) r
  | getVersioned =>
    exact Replying.followsAt_single _ (Replying.agreesAt_versioned _)
      (Replying.isLateComplaint_absentOr _) r
  | setVersioned =>
    exact Replying.followsAt_single _ (Reading.agreesAt_pure _)
      Replying.isLateComplaint_notCurrent r
  | getMulti => exact Replying.followsAt_several _ (Reading.agreesAt_parsed _) _ _ r
  | getPairsByTag => exact Replying.followsAt_several _ (Replying.agreesAt_pair _ _) _ _ r

end Operation

end TagStore
