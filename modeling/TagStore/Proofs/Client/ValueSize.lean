import Mathlib.Algebra.GroupWithZero.Nat
import TagStore.Proofs.Client.Attribution
import TagStore.Proofs.Wire.Fields

/-!
# The greatest size of a value

A client that was told the greatest size of a value refuses a greater one on its own. What it
compares is computed from the length of the payload, and is the length of the field that the request
would carry, to the byte. So a write that is fine otherwise is sent just if its field is no longer
than the server takes, and nothing happens at all if it is longer (`Operation.size_check_exact`).

What a client was told lasts until it is told something else (`Client.Told`). The length is computed
in words of 64 bits, which does not overflow (`Base64.toNat_wordLength`).
-/

namespace TagStore

open Wire

/-! ## The length in words -/

namespace Base64

/-- The length of the written form of so many bytes, computed in words. -/
def wordLength (n : UInt64) : UInt64 := (if n % 3 = 0 then n / 3 else n / 3 + 1) * 4

/-- **The length of the written form does not overflow.** -/
theorem toNat_wordLength {n : Nat} (h : n < 2 ^ 62) :
    (wordLength (.ofNat n)).toNat = encodedLength n := by
  have hn : (UInt64.ofNat n).toNat = n := UInt64.toNat_ofNat_of_lt' (h.trans (by decide))
  have hzero : UInt64.ofNat n % 3 = 0 ↔ n % 3 = 0 := by
    rw [← UInt64.toNat_inj, UInt64.toNat_mod, hn]
    rfl
  rw [wordLength, encodedLength, UInt64.toNat_mul]
  split <;> rename_i h₃ <;> rw [hzero] at h₃
  · rw [UInt64.toNat_div, hn]
    change n / 3 * 4 % 2 ^ 64 = _
    omega
  · rw [UInt64.toNat_add, UInt64.toNat_div, hn]
    change (n / 3 + 1) % 2 ^ 64 * 4 % 2 ^ 64 = _
    omega

end Base64

/-! ## What a client was told -/

namespace Client

variable {ω : Type} {net : Network ω} {limit : Nat} {c : Client ω}

/-- What was the last greatest size that a client was told in its run; 0 if it was told none, or
that there is none. -/
inductive Told (net : Network ω) : Nat → Client ω → Prop
  | start {config : Config} {parts : ClientParts} {w : ω} {c : Client ω} :
    build config parts w = .ok c → Told net 0 c
  | told {limit size : Nat} {c : Client ω} :
    Told net limit c → (c.init net).1 = .ok size → Told net size (c.init net).2
  | failed {limit : Nat} {e : ClientError} {c : Client ω} :
    Told net limit c → (c.init net).1 = .error e → Told net limit (c.init net).2
  | operation {α : Type} {limit : Nat} {c : Client ω} (op : Operation α) :
    Told net limit c → op.opcode ≠ .init → Told net limit (op.run net c).2
  | pause {limit : Nat} {c : Client ω} (pool : Pool ω) :
    Told net limit c → Told net limit { c with pool }

theorem profile_init (net : Network ω) (c : Client ω) :
    (c.init net).2.profile = { c.profile with
      maxValueSize := match (c.init net).1 with
        | .ok size => if size = 0 then none else some size
        | .error _ => c.profile.maxValueSize } := by
  have hp := profile_perform net (.ok Profile.init) .always Replying.init c
  rw [init]
  generalize c.perform net (.ok Profile.init) .always Replying.init = y at hp ⊢
  obtain ⟨e | size, c'⟩ := y
  · exact hp
  · rw [← hp]

/-- **A client keeps in mind what it was told.** -/
theorem Told.maxValueSize (h : Told net limit c) :
    c.profile.maxValueSize = if limit = 0 then none else some limit := by
  induction h with
  | start hbuild =>
    obtain ⟨_, -, hbuild⟩ := exists_of_bind_ok hbuild
    obtain ⟨_, -, hbuild⟩ := exists_of_bind_ok hbuild
    obtain ⟨_, -, hbuild⟩ := exists_of_bind_ok hbuild
    cases hbuild
    rfl
  | told _ hsize _ => rw [profile_init, hsize]
  | failed _ he ih => rw [profile_init, he, ih]
  | operation op _ hop ih => rw [op.profile_run_of_ne_init hop, ih]
  | pause pool _ ih => exact ih

end Client

/-! ## Writes -/

/-- Whether what a write is given passes all checks but that of its size, and its value is written
as a payload. -/
structure Profile.Passes (p : Profile) (key : String) (value : Option Value)
    (options : StoreOptions) (payload : Bytes) : Prop where
  checked : p.checkKey key = .ok ()
  tags : ∀ t ∈ options.tags, checkTag t = .ok ()
  encoded : ∃ v, value = some v ∧ p.payload.encode key v = .ok payload

/-- Whether an operation is a write of a payload that passes all checks but that of its size. -/
def Operation.Writes {α : Type} (p : Profile) (payload : Bytes) : Operation α → Prop
  | .set key value options | .add key value options => p.Passes key value options payload
  | .setVersioned key value token options =>
    Profile.checkVersion token = .ok () ∧ p.Passes key value options payload
  | _ => False

/-- The fields of a request's line are what was put in. -/
theorem Request.fieldsOf_line {r : Request} (h : ∀ b ∈ r.pieces, Contained b) :
    fieldsOf r.line = r.pieces := by
  rw [fieldsOf, r.line_eq, List.dropLast_concat,
    splitOn_joinWith (fun b hb => (h b hb).1) (List.cons_ne_nil _ _)]

/-- The complaint about a value whose field is longer than the server takes. -/
def ClientError.tooLong (size limit : Nat) : ClientError :=
  .operation .valueTooLarge s!"encoded value of {size} bytes exceeds server limit of {limit}"

/-- **What is compared is the length of the field.** -/
theorem Profile.checkSize_eq {p : Profile} {limit : Nat}
    (h : p.maxValueSize = if limit = 0 then none else some limit) (payload : Bytes) :
    p.checkSize payload =
      if 0 < limit ∧ limit < (Base64.encode payload).length then
        .error (.tooLong (Base64.encode payload).length limit)
      else .ok () := by
  rw [checkSize, h, Base64.length_encode]
  by_cases hlimit : limit = 0
  · simp [hlimit]
  · simp [hlimit, Nat.pos_of_ne_zero hlimit, ClientError.tooLong]

namespace Operation

variable {α ω : Type} {op : Operation α} {p : Profile} {payload : Bytes}

/-- The request of a write is decided by the size of its payload. -/
theorem Writes.exists_request (h : op.Writes p payload) :
    ∃ r, op.request p = (p.checkSize payload).map (fun _ => r) ∧
      r.pieces[4]? = some (Base64.encode payload) := by
  cases op with
  | set | add =>
    obtain ⟨hk, ht, v, rfl, he⟩ := h
    exact ⟨_, Profile.write_of_checks hk ht he, rfl⟩
  | setVersioned =>
    obtain ⟨hversion, hk, ht, v, rfl, he⟩ := h
    rw [request, Profile.setVersioned_eq hversion]
    exact ⟨_, Profile.write_of_checks hk ht he, rfl⟩
  | _ => exact h.elim

theorem Writes.isVoid (h : op.Writes p payload) : op.isVoid = false := by
  cases op with
  | getMulti => exact h.elim
  | _ => rfl

/-- **The check of the size is exact.** Let a client have been told a greatest size, and let a write
be fine otherwise. It has a request just if the field of its value is not longer, and the field of
the request is that field; if it is longer the write fails, and nothing else happens. A client that
was told no greatest size refuses no write for its size. What is compared does not overflow. -/
theorem size_check_exact {net : Network ω} {limit : Nat} {c : Client ω} (h : c.Told net limit)
    (hw : op.Writes c.profile payload) :
    (0 < limit →
      ((∃ r, op.request c.profile = .ok r) ↔ (Base64.encode payload).length ≤ limit) ∧
      (limit < (Base64.encode payload).length →
        op.run net c = (.error (.tooLong (Base64.encode payload).length limit), c))) ∧
    (limit = 0 → ∃ r, op.request c.profile = .ok r) ∧
    (∀ r, op.request c.profile = .ok r →
      (fieldsOf r.line)[4]? = some (Base64.encode payload)) ∧
    (payload.length < 2 ^ 62 →
      (Base64.wordLength (.ofNat payload.length)).toNat = (Base64.encode payload).length) := by
  obtain ⟨r, hr, hfield⟩ := hw.exists_request
  rw [Profile.checkSize_eq h.maxValueSize] at hr
  refine ⟨fun hlimit => ⟨?_, fun hlong => ?_⟩, fun hnone => ⟨r, ?_⟩, fun r' hr' => ?_,
    fun hlen => ?_⟩
  · rw [hr]
    by_cases hlong : limit < (Base64.encode payload).length
    · rw [if_pos ⟨hlimit, hlong⟩]
      constructor
      · rintro ⟨_, he⟩
        cases he
      · intro hle
        omega
    · rw [if_neg fun hh => hlong hh.2]
      exact ⟨fun _ => Nat.not_lt.1 hlong, fun _ => ⟨r, rfl⟩⟩
  · rw [if_pos ⟨hlimit, hlong⟩] at hr
    exact run_of_request_error hw.isVoid hr
  · rw [hr, hnone, if_neg (by simp)]
    rfl
  · rw [Request.fieldsOf_line (contained_pieces hr')]
    split at hr
    · cases hr.symm.trans hr'
    · obtain rfl := Except.ok.inj (hr.symm.trans hr')
      exact hfield
  · rw [Base64.toNat_wordLength hlen, Base64.length_encode]

/-- A client that was told 8 as the greatest size. -/
theorem told_asked_one : (Client.asked 1).Told Network.constant.recorded 8 := by
  have hbuild : Client.build { endpoints := ["a:1"] } {} ⟨(0, []), []⟩ = .ok .untried := rfl
  exact .told (.start hbuild) (by decide +kernel)

/-- Of two texts of which one is a byte longer, the shorter has a field of eight bytes and is sent,
and the longer is refused. -/
theorem size_check_exact_eight :
    (∃ r, (set "k" (some (.text "abcdef")) {}).request (Client.asked 1).profile = .ok r ∧
      (fieldsOf r.line)[4]? = some (Bytes.ofString "YWJjZGVm")) ∧
    (set "k" (some (.text "abcdefg")) {}).run Network.constant.recorded (Client.asked 1) =
      (.error (.operation .valueTooLarge
        "encoded value of 12 bytes exceeds server limit of 8"), Client.asked 1) := by
  have hshort : (set "k" (some (.text "abcdef")) {}).Writes (Client.asked 1).profile
      (Bytes.ofString "abcdef") := ⟨by decide +kernel, by simp, _, rfl, by decide +kernel⟩
  have hlong : (set "k" (some (.text "abcdefg")) {}).Writes (Client.asked 1).profile
      (Bytes.ofString "abcdefg") := ⟨by decide +kernel, by simp, _, rfl, by decide +kernel⟩
  obtain ⟨hsent, -, hfield, -⟩ := size_check_exact told_asked_one hshort
  obtain ⟨r, hr⟩ := (hsent (by decide)).1.2 (by decide)
  refine ⟨⟨r, hr, (hfield r hr).trans (by decide)⟩, ?_⟩
  exact ((size_check_exact told_asked_one hlong).1 (by decide)).2 (by decide)

end Operation

end TagStore
