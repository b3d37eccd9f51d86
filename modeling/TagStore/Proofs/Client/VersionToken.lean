import TagStore.Proofs.Client.Blocks
import TagStore.Proofs.Client.ValueSize
import TagStore.Proofs.Payload

/-!
# Versions handed back

A version is what a server puts in a field of its reply, and a client hands it back as it is. What
the reader makes of the field (`Replying.getVersioned_eq_some`) and what the writer takes for a
version (`Profile.checkVersion_eq_ok`) are settled independently of each other. They meet where the
field has some bytes and is no list: then it stands in the request as it stood in the reply
(`Operation.version_handed_back`). They do not always meet: a reply may come without a version, or
with one that would be a list, and these are refused (`Operation.version_refused`).
-/

namespace TagStore

open Wire

/-! ## The fields of a reply -/

namespace Wire

/-- What stands between the separators and line ends of a reply. -/
def fieldsIn (b : Bytes) : List Bytes := b.splitOnP fun x => x == fieldSeparator || x == lineEnd

theorem fieldsIn_cons {f : Bytes} {x : UInt8} (hf : Contained f)
    (hx : x = fieldSeparator ∨ x = lineEnd) (rest : Bytes) :
    fieldsIn (f ++ x :: rest) = f :: fieldsIn rest := by
  refine List.splitOnP_append_cons_of_forall_mem (fun y hy => ?_) x (by simpa using hx) rest
  have hsep : y ≠ fieldSeparator := fun h => hf.1 (h ▸ hy)
  have hend : y ≠ lineEnd := fun h => hf.2 (h ▸ hy)
  simp [hsep, hend]

theorem contained_firstField (b : Bytes) : Contained (firstField b) := by
  have h := fun (y : UInt8) (hy : y ∈ firstField b) => List.mem_takeWhile_imp hy
  simp only [decide_eq_true_eq] at h
  exact ⟨fun hm => (h _ hm).1 rfl, fun hm => (h _ hm).2 rfl⟩

end Wire

namespace Reading

variable {α : Type}

/-- A field that is read is the first of those at hand. -/
theorem parsed_fieldsIn {parse : Bytes → Except ProtocolError α} {r r' : Reader Unit} {a : α}
    (h : parsed .ended parse r = (.ok a, r')) :
    ∃ f, Contained f ∧ parse f = .ok a ∧
      fieldsIn r.buffer.unread = f :: fieldsIn r'.buffer.unread := by
  obtain ⟨hp, x, hx⟩ := parsed_eq_ok h
  refine ⟨_, contained_firstField _, hp, ?_⟩
  have hfirst : firstField (firstField r.buffer.unread ++ x :: r'.buffer.unread) =
      firstField r.buffer.unread := congrArg firstField hx.symm
  conv_lhs => rw [hx]
  exact fieldsIn_cons (contained_firstField _) (separator_of_firstField hfirst) _

end Reading

/-- The version that a field of a reply stands for: the text of the field, or none. -/
def Wire.versionOf (field : Bytes) : Except ProtocolError String :=
  (string .raw field).map (·.getD "")

namespace Replying

open AtHand

/-- **The version of a reply is its fourth field.** -/
theorem getVersioned_eq_some {codec : PayloadCodec} {r r' : Reader Unit} {v : VersionedValue}
    (h : getVersioned codec .ended r = (.ok (some v), r')) :
    ∃ field, (fieldsIn r.buffer.unread)[3]? = some field ∧ Contained field ∧
      versionOf field = .ok v.version := by
  obtain ⟨_, r₁, h₁, h⟩ := bind_eq_ok h
  obtain ⟨status, r₂, h₂, h⟩ := bind_eq_ok h
  obtain ⟨a, r₃, h₃, h⟩ := bind_eq_ok h
  obtain ⟨_, r₄, -, h⟩ := bind_eq_ok h
  obtain rfl : a = some v := by
    cases h
    rfl
  obtain ⟨n, r₁', hn, hc⟩ := bind_eq_ok (lift_eq_ok h₁)
  obtain ⟨-, rfl⟩ := Reading.ofExcept_eq_ok hc
  obtain ⟨number, -, -, hnumber⟩ := Reading.parsed_fieldsIn hn
  obtain ⟨state, -, -, hstate⟩ := Reading.parsed_fieldsIn (lift_eq_ok h₂)
  cases status with
  | failed =>
    -- a complaint is no value
    obtain ⟨text, r₅, -, h₅⟩ := bind_eq_ok h₃
    by_cases ht : text.getD "" = "" <;>
    · simp only [absentOr, ht, if_true, if_false] at h₅
      cases h₅
  | ok =>
    obtain ⟨value, r₅, h₅, h₆⟩ := bind_eq_ok (lift_eq_ok h₃)
    obtain ⟨version, r₆, h₇, h₈⟩ := bind_eq_ok h₆
    obtain ⟨f, -, -, hf⟩ := Reading.parsed_fieldsIn h₅
    obtain ⟨field, hcontained, hparse, hfield⟩ := Reading.parsed_fieldsIn h₇
    refine ⟨field, by rw [hnumber, hstate, hf, hfield]; rfl, hcontained, ?_⟩
    rw [versionOf, hparse]
    cases value with
    | none => cases h₈
    | some w =>
      cases h₈
      rfl

end Replying

/-! ## Replies on record -/

variable {ω α : Type} {net : Network ω}

/-- Whether the last that passed over a network is a request and what was received in reply. -/
def Record.Replied (log : Record) (request reply : Bytes) : Prop :=
  ∃ (link : Nat) (ws : List Bytes) (reads older : Record),
    log = reads ++ (.ofWrites link ws ++ older) ∧ ws.flatten = request ∧ reads.Within link ∧
      reads.writes = [] ∧ reads.received link = reply

theorem Pool.Taken.unread {p p₁ : Pool (Recorded ω)} {c : Connection}
    (h : Pool.Taken p (.ok c, p₁)) : c.buffer.unread = [] := by
  cases h with
  | kept _ _ _ hu => exact hu
  | opened _ _ hb => rw [hb]; rfl

/-- **What an exchange gives is decoded from what was received in reply to its request.** -/
theorem Exchange.exists_reply {x : Exchange α}
    (h : ∀ {σ : Type} (src : Source σ) r, Replying.FollowsAt src (x.reply src) (x.reply .ended) r)
    {p p' : Pool (Recorded ω)} {a : α} (hx : x.run net.recorded p = (.ok a, p')) :
    ∃ reply r', p'.net.log.Replied x.request.line reply ∧
      x.reply .ended (.holding reply true) = (.ok a, r') := by
  have decoded (q : Pool (Recorded ω)) (hq : x.attempt net.recorded q = (.ok a, p')) :
      ∃ reply r', p'.net.log.Replied x.request.line reply ∧
        x.reply .ended (.holding reply true) = (.ok a, r') := by
    have hatt := x.attempted net h q
    rw [hq] at hatt
    cases hatt with
    | decoded ht _ hl hw hwithin hn _ hu hm =>
      rw [ht.unread, List.nil_append] at hu
      exact ⟨_, _, ⟨_, _, _, _, hl, hw, hwithin, hn, hu⟩, hm _⟩
  rcases x.run_cases net.recorded p with ⟨hr, -⟩ | ⟨e, -, -, hr⟩
  · exact decoded p (hr.symm.trans hx)
  · exact decoded _ (hr.symm.trans hx)

namespace Operation

/-- What an operation gives is decoded from what was received in reply to its request. -/
theorem exists_reply {op : Operation α} {c c₁ : Client (Recorded ω)} {a : α}
    (hv : op.isVoid = false) (hc : ∀ a, op.conclude a = .ok a)
    (h : op.run net.recorded c = (.ok a, c₁)) :
    ∃ r reply r', op.request c.profile = .ok r ∧ c₁.pool.net.log.Replied r.line reply ∧
      op.reply c.profile .ended (.holding reply true) = (.ok a, r') := by
  have hran := op.ran net.recorded c
  rw [h] at hran
  generalize hy : ((Except.ok a : Except ClientError α), c₁) = y at hran
  cases hran with
  | void hvoid => cases hv.symm.trans hvoid
  | unwritten => cases hy
  | @exchanged r y pool profile _ hr hx =>
    obtain ⟨hgiven, rfl⟩ := Prod.mk.inj hy
    cases y with
    | error e => cases hgiven
    | ok b =>
      obtain rfl : a = b := Except.ok.inj (hgiven.trans (hc b))
      obtain ⟨reply, r', hreplied, hdecoded⟩ :=
        Exchange.exists_reply (fun src => op.followsAt_reply c.profile src) hx
      exact ⟨r, reply, r', hr, hreplied, hdecoded⟩

/-- No operation changes how keys are written. -/
theorem keys_run (net : Network ω) (op : Operation α) (c : Client ω) :
    (op.run net c).2.profile.keys = c.profile.keys := by
  by_cases h : op.opcode = .init
  · cases op with
    | init =>
      rw [run, c.profile_init net]
    | _ => cases h
  · rw [profile_run_of_ne_init h]

end Operation

theorem Client.Runs.keys_eq {c c' : Client (Recorded ω)} (h : Client.Runs net c c') :
    c'.profile.keys = c.profile.keys := by
  induction h with
  | start => rfl
  | operation op _ ih => exact (op.keys_run _ _).trans ih
  | pause _ _ _ ih => exact ih

/-! ## Versions that are written -/

namespace Profile

variable {p q : Profile} {key version : String}

theorem checkKey_congr (h : p.keys = q.keys) (key : String) : p.checkKey key = q.checkKey key := by
  rw [checkKey, checkKey, h]

/-- **What stays within a field and is no list is taken for a version.** -/
theorem checkVersion_eq_ok (hne : version ≠ "") (h : Contained (Bytes.ofString version))
    (hlist : listSeparator ∉ Bytes.ofString version) : checkVersion version = .ok () := by
  rw [checkVersion, if_neg]
  rintro (hempty | hany)
  · exact hne hempty
  · obtain ⟨x, hx, hd⟩ := List.any_eq_true.1 hany
    simp only [isDelimiter, Bool.or_eq_true, beq_iff_eq] at hd
    rcases hd with (rfl | rfl) | rfl
    · exact h.1 hx
    · exact hlist hx
    · exact h.2 hx

theorem checkSize_of_le {payload : Bytes}
    (h : ∀ limit, p.maxValueSize = some limit → (Base64.encode payload).length ≤ limit) :
    p.checkSize payload = .ok () := by
  rw [checkSize]
  split
  · rfl
  · rename_i limit hlimit
    rw [Base64.length_encode] at h
    exact if_neg (Nat.not_lt.2 (h limit hlimit))

end Profile

/-! ## Versions that are read -/

namespace Wire

variable {field : Bytes} {version : String}

/-- A field that is not absent is its version. -/
theorem ofString_of_versionOf (h : versionOf field = .ok version) (hf : field ≠ absent) :
    Bytes.ofString version = field := by
  rw [versionOf, string, if_neg hf, Encoding.decode, utf8] at h
  cases hs : Utf8.decode? field with
  | none =>
    rw [hs] at h
    cases h
  | some s =>
    rw [hs] at h
    cases h
    exact (Utf8.ofString_of_decode? hs).symm

/-- There is no version where the field is empty or absent. -/
theorem versionOf_eq_empty_iff (h : versionOf field = .ok version) :
    version = "" ↔ field = [] ∨ field = absent := by
  constructor
  · rintro rfl
    by_cases hf : field = absent
    · exact .inr hf
    · exact .inl (ofString_of_versionOf h hf).symm
  · intro hf
    have hempty : versionOf field = .ok "" := by
      rcases hf with rfl | rfl <;> rfl
    exact (Except.ok.inj (hempty.symm.trans h)).symm

end Wire

/-! ## Versions that are handed back -/

namespace Operation

theorem profile_of_getVersioned {net : Network ω} {c c₁ : Client ω} {key : String}
    {y : Except ClientError (Option VersionedValue)} (h : (getVersioned key).run net c = (y, c₁)) :
    c₁.profile = c.profile := by
  have hkept : ((getVersioned key).run net c).2.profile = c.profile :=
    profile_run_of_ne_init nofun
  rwa [h] at hkept

/-- **A version is handed back as it came.** Let a client have read a value with its version. The
version is the fourth field of the reply, and is empty if that is empty or absent. An empty version
is refused, and nothing else happens. Any other, unless its field would be a list, may be handed
back with any text that is not too long for what the client was told: the request is written, and
the field of the version in it is the field of the reply. In between the client may do anything. -/
theorem version_handed_back {c c₁ c₂ : Client (Recorded ω)} {key : String} {v : VersionedValue}
    (h : (getVersioned key).run net.recorded c = (.ok (some v), c₁))
    (hruns : Client.Runs net c₁ c₂) :
    ∃ r reply field, (getVersioned key).request c.profile = .ok r ∧
      c₁.pool.net.log.Replied r.line reply ∧ (fieldsIn reply)[3]? = some field ∧
      (v.version = "" ↔ field = [] ∨ field = absent) ∧
      (v.version = "" → ∀ value options,
        (setVersioned key value v.version options).run net.recorded c₂ =
          (.error (.invalidArgument "invalid version token \"\""), c₂)) ∧
      (v.version ≠ "" → Bytes.ofString v.version = field ∧
        (listSeparator ∉ field → ∀ text options payload,
          (∀ t ∈ options.tags, Profile.checkTag t = .ok ()) →
          c₂.profile.payload.encode key (.text text) = .ok payload →
          (∀ limit, c₂.profile.maxValueSize = some limit →
            (Base64.encode payload).length ≤ limit) →
          ∃ r', (setVersioned key (some (.text text)) v.version options).request c₂.profile =
              .ok r' ∧
            (fieldsOf r'.line)[5]? = some field)) := by
  obtain ⟨r, reply, r', hr, hreplied, hdecoded⟩ := exists_reply rfl (fun _ => rfl) h
  obtain ⟨field, hfield, hcontained, hversion⟩ := Replying.getVersioned_eq_some hdecoded
  have hempty := versionOf_eq_empty_iff hversion
  refine ⟨r, reply, field, hr, hreplied, hfield, hempty, fun hnone value options => ?_,
    fun hne => ?_⟩
  · refine run_of_request_error rfl ?_
    rw [request, Profile.setVersioned, hnone]
    rfl
  · have hbytes := ofString_of_versionOf hversion fun habsent => hne (hempty.2 (.inr habsent))
    refine ⟨hbytes, fun hlist text options payload htags hpayload hsize => ?_⟩
    have hkey : c₂.profile.checkKey key = .ok () := by
      rw [Profile.checkKey_congr (profile_of_getVersioned h ▸ hruns.keys_eq)]
      exact (Profile.check_of_bind_ok hr).1
    have hcheck : Profile.checkVersion v.version = .ok () :=
      Profile.checkVersion_eq_ok hne (hbytes ▸ hcontained) (hbytes ▸ hlist)
    obtain ⟨r', hr', hpiece⟩ : ∃ r',
        (setVersioned key (some (.text text)) v.version options).request c₂.profile = .ok r' ∧
          r'.pieces[5]? = some (Bytes.ofString v.version) := by
      rw [request, Profile.setVersioned_eq hcheck, Profile.write_of_checks hkey htags hpayload,
        Profile.checkSize_of_le hsize]
      exact ⟨_, rfl, rfl⟩
    refine ⟨r', hr', ?_⟩
    rw [Request.fieldsOf_line (contained_pieces hr'), hpiece, hbytes]

end Operation

/-! ## Versions of one server -/

/-- A network on which the greatest size is 4 and every other line is answered with the reply. -/
def Network.answering (reply : String) : Network (Nat × Bytes) :=
  { Network.constant with
    write _ b s :=
      (.accepted b.length,
        (s.1, Bytes.ofString (if b = Profile.init.line then "0,true,4\n" else reply))) }

namespace Operation

/-- A version that is read, whatever comes with it. -/
theorem exists_versioned {net : Network ω} {c : Client ω} {key version : String}
    (h : ((getVersioned key).run net c).1.map (·.map VersionedValue.version) =
      .ok (some version)) :
    ∃ v c₁, (getVersioned key).run net c = (.ok (some v), c₁) ∧ v.version = version := by
  obtain ⟨_ | v, c₁, hrun, hv⟩ := exists_of_map h
  · cases hv
  · exact ⟨v, c₁, hrun, Option.some.inj hv⟩

/-- The version `7` comes back in the request as it came in the reply. -/
theorem version_handed_back_seven :
    ∃ v c₁ r, (getVersioned "a").run (Network.answering "15,true,YQ==,7\n").recorded .untried =
        (.ok (some v), c₁) ∧
      (setVersioned "a" (some (.text "b")) v.version {}).request c₁.profile = .ok r ∧
      (fieldsOf r.line)[5]? = some (Bytes.ofString "7") := by
  obtain ⟨v, c₁, hrun, hv⟩ : ∃ v c₁, (getVersioned "a").run
      (Network.answering "15,true,YQ==,7\n").recorded .untried = (.ok (some v), c₁) ∧
        v.version = "7" := exists_versioned (by decide +kernel)
  obtain ⟨_, _, field, -, -, -, -, -, hback⟩ := version_handed_back hrun .start
  have hprofile : c₁.profile = ⟨.base64, .standard, none⟩ := profile_of_getVersioned hrun
  obtain ⟨rfl, hback⟩ := hback (by rw [hv]; decide)
  obtain ⟨r, hr, hfield⟩ := hback (by rw [hv]; decide) "b" {} (Bytes.ofString "b") (by simp)
    (by rw [hprofile]; rfl) (by simp [hprofile])
  exact ⟨v, c₁, r, hrun, hr, by rw [hfield, hv]⟩

/-- **A version cannot always be handed back:** not one that would be a list, and not one that did
not come. Nor can it with every text, once the client was told a greatest size. -/
theorem version_refused :
    (∃ v c₁, (getVersioned "a").run
        (Network.answering "15,true,YQ==,1:2\n").recorded .untried = (.ok (some v), c₁) ∧
      (setVersioned "a" (some (.text "b")) v.version {}).run
        (Network.answering "15,true,YQ==,1:2\n").recorded c₁ =
          (.error (.invalidArgument "invalid version token \"1:2\""), c₁)) ∧
    (∃ v c₁, (getVersioned "a").run
        (Network.answering "15,true,YQ==,\n").recorded .untried = (.ok (some v), c₁) ∧
      (setVersioned "a" (some (.text "b")) v.version {}).run
        (Network.answering "15,true,YQ==,\n").recorded c₁ =
          (.error (.invalidArgument "invalid version token \"\""), c₁)) ∧
    ∃ c v c₁, init.run (Network.answering "15,true,YQ==,7\n").recorded .untried = (.ok 4, c) ∧
      (getVersioned "a").run
        (Network.answering "15,true,YQ==,7\n").recorded c = (.ok (some v), c₁) ∧
      (setVersioned "a" (some (.text "abcd")) v.version {}).run
        (Network.answering "15,true,YQ==,7\n").recorded c₁ =
          (.error (.operation .valueTooLarge
            "encoded value of 8 bytes exceeds server limit of 4"), c₁) := by
  refine ⟨?_, ?_, ?_⟩
  · obtain ⟨v, c₁, hrun, hv⟩ : ∃ v c₁, (getVersioned "a").run
        (Network.answering "15,true,YQ==,1:2\n").recorded .untried = (.ok (some v), c₁) ∧
          v.version = "1:2" := exists_versioned (by decide +kernel)
    have hcheck : Profile.checkVersion "1:2" =
        .error (.invalidArgument "invalid version token \"1:2\"") := by decide +kernel
    refine ⟨v, c₁, hrun, run_of_request_error rfl ?_⟩
    rw [hv, request, Profile.setVersioned, hcheck]
    rfl
  · obtain ⟨v, c₁, hrun, hv⟩ : ∃ v c₁, (getVersioned "a").run
        (Network.answering "15,true,YQ==,\n").recorded .untried = (.ok (some v), c₁) ∧
          v.version = "" := exists_versioned (by decide +kernel)
    exact ⟨v, c₁, hrun, run_of_request_error rfl (by rw [hv]; rfl)⟩
  · have htold : (init.run (Network.answering "15,true,YQ==,7\n").recorded .untried).1 = .ok 4 := by
      decide +kernel
    obtain ⟨v, c₁, hrun, hv⟩ : ∃ v c₁, (getVersioned "a").run
        (Network.answering "15,true,YQ==,7\n").recorded
          (init.run (Network.answering "15,true,YQ==,7\n").recorded .untried).2 =
            (.ok (some v), c₁) ∧ v.version = "7" := exists_versioned (by decide +kernel)
    have hprofile : c₁.profile = ⟨.base64, .standard, some 4⟩ := by
      have hinit := Client.untried.profile_init (Network.answering "15,true,YQ==,7\n").recorded
      rw [show (Client.untried.init _).1 = .ok 4 from htold] at hinit
      exact (profile_of_getVersioned hrun).trans hinit
    exact ⟨_, v, c₁, Prod.ext htold rfl, hrun,
      run_of_request_error rfl (by rw [hv, hprofile]; rfl)⟩

end Operation

end TagStore
