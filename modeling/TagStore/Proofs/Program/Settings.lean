import TagStore.Program.Invocation
import TagStore.Proofs.Program.Scanning
import TagStore.Proofs.Text.Decimal

/-!
# Settings without switches

Where a command line names no switch that says how to reach the nodes, its settings are those of
the environment but for four (`Invocation.toConfig_of_silent`). A variable that a switch falls back
on is then well formed, and a well formed one is read alike with and without trimming
(`number?_eq_bind`, `flag?_eq_bind`). But the list of endpoints is cut without trimming, and the
switches for the form of keys and values fall back on no variable: they put the usual settings in
the place of what the environment says.
-/

namespace TagStore.Program

/-- The names of the switches in front of the command that have nothing to do with the nodes. -/
def otherNames : List String := ["log-format", "help", "version"]

/-- The switches that say how to reach the nodes. -/
def connectingSwitches : List Switch :=
  mainGrammar.switches.filter fun s => !otherNames.contains s.name

/-- Whether a command line says nothing of how to reach the nodes. -/
def Silent (args : List String) : Prop :=
  ∀ a ∈ args.takeWhile fun a => !mainGrammar.commands.contains a,
    ∀ s ∈ connectingSwitches, s.namedBy a = false

instance (args : List String) : Decidable (Silent args) :=
  inferInstanceAs (Decidable (∀ a ∈ args.takeWhile _, ∀ s ∈ connectingSwitches, _))

/-! ## What the switches leave out -/

/-- Whether nothing that was read says how to reach the nodes. -/
def Scan.Unset (st : Scan) : Prop := st.Only mainGrammar (· ∈ otherNames)

namespace Scan.Unset

variable {st : Scan} {name : String}

theorem values_eq_nil (h : st.Unset) (hname : name ∉ otherNames) : st.values name = [] := by
  rw [values, List.reverse_eq_nil_iff, List.map_eq_nil_iff, List.filter_eq_nil_iff]
  intro p hp hpname
  exact hname (of_decide_eq_true hpname ▸ h.given p hp)

theorem value?_eq_none (h : st.Unset) (hname : name ∉ otherNames) : st.value? name = none := by
  rw [value?, h.values_eq_nil hname]
  rfl

theorem has_eq_false (h : st.Unset) (hname : name ∉ otherNames) : st.has name = false := by
  rw [has, h.value?_eq_none hname]
  rfl

end Scan.Unset

/-- The name of a command is no form of the log, and the other two switches end everything. -/
theorem accept_ne_ok_of_command {s : Switch} {c : String} (hs : s ∈ mainGrammar.switches)
    (hname : s.name ∈ otherNames) (hc : c ∈ mainGrammar.commands) (st st' : Scan) :
    st.accept s c ≠ .ok st' := by
  have hlog : ∀ c ∈ mainGrammar.commands, logFormat? c = none := by decide
  have hother : ∀ s ∈ mainGrammar.switches.drop 3, s.name ∉ otherNames := by decide
  rw [← List.take_append_drop 3 mainGrammar.switches, List.mem_append] at hs
  obtain hs | hs := hs
  · obtain rfl | rfl | rfl : s = .reading "log-format" logFormat? ∨
        s = ⟨"help", some 'h', .halt .help⟩ ∨ s = ⟨"version", some 'V', .halt .version⟩ := by
      simpa [mainGrammar, commonSwitches] using hs
    · simp [Scan.accept, Switch.reading, hlog c hc]
    · nofun
    · nofun
  · exact absurd hname (hother s hs)

theorem Scan.unset_of_run {args : List String} {st st' : Scan}
    {rest : Option (String × List String)} (hsilent : Silent args)
    (hrun : Scan.run mainGrammar false .start args = .ok (st, rest))
    (hresolve : st.resolve = .ok st') : st'.Unset := by
  have hstart : Scan.start.Unset := ⟨nofun, nofun⟩
  have honly := Scan.only_of_run hstart (fun a ha s hs hnamed => ?_) (by decide)
    (fun s hs hname c hc => accept_ne_ok_of_command hs hname hc) hrun
  · obtain h | ⟨e, he⟩ := honly
    · exact h.resolve hresolve
    · cases he.symm.trans hresolve
  · by_contra hname
    have hmem : s ∈ connectingSwitches := List.mem_filter.2 ⟨hs, by simpa using hname⟩
    rw [hsilent a ha s hmem] at hnamed
    cases hnamed

/-! ## What the environment gives -/

section Variables

variable {env : Environment} {var : String}

/-- A whole number that is well formed has no white space around it. -/
theorem number?_eq_bind (h : ∀ s, env var = some s → (number? s).isSome) :
    env.number? Text.maxU64 var = (env var).bind number? := by
  rw [Environment.number?, Environment.trimmed]
  cases hs : env var with
  | none => rfl
  | some s =>
    obtain ⟨n, hn⟩ := Option.isSome_iff_exists.1 (h s hs)
    rw [Option.map_some, Option.bind_some, Option.bind_some, Text.trimChars_of_unsigned? hn, number?]

/-- A truth value that is well formed has no white space around it. -/
theorem flag?_eq_bind (h : ∀ s, env var = some s → (bool? s).isSome) :
    env.flag? var = (env var).bind bool? := by
  rw [Environment.flag?, Environment.trimmed]
  cases hs : env var with
  | none => rfl
  | some s =>
    have hsome := h s hs
    rw [bool?] at hsome
    split at hsome
    · subst s
      decide
    · split at hsome
      · subst s
        decide
      · cases hsome

/-- A setting that no switch gives is that of a well formed variable, or the usual one. -/
theorem setting_of_unset {α : Type} {st : Scan} {name : String} {read : String → Option α}
    {usual a : α} (hst : st.value? name = none) (h : setting st env name var read usual = .ok a) :
    a = ((env var).bind read).getD usual ∧ ∀ s, env var = some s → (read s).isSome := by
  rw [setting, hst, Option.none_or] at h
  cases hs : env var with
  | none =>
    rw [hs] at h
    cases h
    exact ⟨rfl, nofun⟩
  | some s =>
    rw [hs] at h
    cases hr : read s with
    | none =>
      simp only [hr] at h
      cases h
    | some b =>
      simp only [hr] at h
      cases h
      refine ⟨by rw [Option.bind_some, hr]; rfl, fun s' hs' => ?_⟩
      cases hs'
      rw [hr]
      rfl

theorem setting_number {st : Scan} {name : String} {usual n : Nat} (hst : st.value? name = none)
    (h : setting st env name var number? usual = .ok n) :
    n = (env.number? Text.maxU64 var).getD usual := by
  obtain ⟨rfl, hsome⟩ := setting_of_unset hst h
  rw [number?_eq_bind hsome]

theorem setting_millis {st : Scan} {name : String} {usual d : Duration}
    (hst : st.value? name = none)
    (h : setting st env name var (fun s => (number? s).map Duration.ofMillis) usual = .ok d) :
    d = ((env.number? Text.maxU64 var).map Duration.ofMillis).getD usual := by
  obtain ⟨rfl, hsome⟩ := setting_of_unset hst h
  simp only [Option.isSome_map] at hsome
  rw [number?_eq_bind hsome, Option.map_bind]
  rfl

theorem setting_flag {st : Scan} {name : String} {usual b : Bool} (hst : st.value? name = none)
    (h : setting st env name var bool? usual = .ok b) : b = (env.flag? var).getD usual := by
  obtain ⟨rfl, hsome⟩ := setting_of_unset hst h
  rw [flag?_eq_bind hsome]

end Variables

/-- Cutting without trimming gives the trimmed parts just if nothing is to be trimmed or left
out. -/
theorem splitEndpoints_eq_entries_iff {listed : String} :
    splitEndpoints listed = Text.entries listed ↔
      ∀ part ∈ splitEndpoints listed, part ≠ "" ∧ Text.trim part = part := by
  have hentries : Text.entries listed =
      ((splitEndpoints listed).map Text.trim).filter (· ≠ "") := by
    rw [Text.entries, splitEndpoints, List.map_map]
    congr! 2
    funext cs
    rw [Function.comp_apply, Text.trim, String.toList_ofList]
  rw [hentries]
  generalize splitEndpoints listed = parts
  have htrim : parts.map Text.trim = parts ↔ ∀ part ∈ parts, Text.trim part = part :=
    calc parts.map Text.trim = parts
      _ ↔ parts.map Text.trim = parts.map id := by rw [List.map_id]
      _ ↔ ∀ part ∈ parts, Text.trim part = part := List.map_inj_left
  constructor
  · intro h
    -- a part that is left out makes the list shorter
    have hkept : ∀ part ∈ parts.map Text.trim, part ≠ "" := by
      have hlength := congrArg List.length h
      rw [← List.length_map Text.trim, eq_comm, List.length_filter_eq_length_iff] at hlength
      exact fun part hpart => of_decide_eq_true (hlength part hpart)
    rw [List.filter_eq_self.2 fun part hpart => decide_eq_true (hkept part hpart)] at h
    rw [← h] at hkept
    exact fun part hpart => ⟨hkept part hpart, htrim.1 h.symm part hpart⟩
  · intro h
    rw [htrim.2 fun part hpart => (h part hpart).2, eq_comm, List.filter_eq_self]
    exact fun part hpart => decide_eq_true (h part hpart).1

/-- How to reach the nodes where no switch tells it. -/
theorem Connecting.ofScan_of_unset {st : Scan} {env : Environment} {c : Connecting}
    (hst : st.Unset) (h : Connecting.ofScan st env = .ok c) :
    ∃ listed, env "OKUYAMA_ENDPOINTS" = some listed ∧ c =
      { endpoints := splitEndpoints listed
        poolSize := (Config.ofEnvironment env).pool.maxPoolSize
        connectTimeout := (Config.ofEnvironment env).pool.connectTimeout
        readTimeout := (Config.ofEnvironment env).pool.readTimeout
        rawKeys := false
        noCompression := false
        compressor := .deflate
        dumpStream := (Config.ofEnvironment env).dumpStream } := by
  have hunset {name : String} (hname : name ∉ otherNames) :=
    hst.value?_eq_none hname
  rw [Connecting.ofScan, hst.values_eq_nil (by decide), hst.has_eq_false (by decide),
    hst.has_eq_false (by decide), hst.has_eq_false (by decide), hunset (by decide)] at h
  cases hlisted : env "OKUYAMA_ENDPOINTS" with
  | none =>
    rw [hlisted] at h
    cases h
  | some listed =>
    rw [hlisted] at h
    obtain ⟨endpoints, hendpoints, h⟩ := exists_of_bind_ok h
    cases hendpoints
    obtain ⟨poolSize, hpool, h⟩ := exists_of_bind_ok h
    obtain ⟨connectTimeout, hconnect, h⟩ := exists_of_bind_ok h
    obtain ⟨readTimeout, hread, h⟩ := exists_of_bind_ok h
    rw [if_neg Bool.false_ne_true] at h
    obtain ⟨dumpStream, hdump, h⟩ := exists_of_bind_ok h
    cases h
    rw [setting_number (hunset (by decide)) hpool, setting_millis (hunset (by decide)) hconnect,
      setting_millis (hunset (by decide)) hread, setting_flag (hunset (by decide)) hdump]
    exact ⟨listed, rfl, rfl⟩

/-! ## The settings of a command line -/

/-- A command line that is carried out was read to its end, and so was what says how to reach the
nodes. -/
theorem Invocation.exists_of_read {args : List String} {env : Environment} {inv : Invocation}
    (h : Invocation.read args env = .ok inv) :
    ∃ st rest st', Scan.run mainGrammar false .start args = .ok (st, rest) ∧
      st.resolve = .ok st' ∧ Connecting.ofScan st' env = .ok inv.connecting := by
  obtain ⟨⟨st, rest⟩, hrun, h⟩ := exists_of_bind_ok h
  cases rest with
  | none => cases h
  | some rest =>
    obtain ⟨name, args⟩ := rest
    dsimp only at h
    split at h
    · cases h
    · obtain ⟨⟨own, rest'⟩, -, h⟩ := exists_of_bind_ok h
      obtain ⟨own', -, h⟩ := exists_of_bind_ok h
      split at h
      · cases h
      · obtain ⟨st', hresolve, h⟩ := exists_of_bind_ok h
        obtain ⟨connecting, hscan, h⟩ := exists_of_bind_ok h
        cases h
        exact ⟨st, _, st', hrun, hresolve, hscan⟩

/-- Whether an environment lists the endpoints without white space and without gaps, and leaves the
usual settings to the switches that fall back on none of its variables. -/
structure Mirrored (env : Environment) : Prop where
  endpoints : ∀ listed, env "OKUYAMA_ENDPOINTS" = some listed →
    ∀ part ∈ splitEndpoints listed, part ≠ "" ∧ Text.trim part = part
  base64Keys : env.flag? "OKUYAMA_BASE64_KEYS" ≠ some false
  compression : env.flag? "OKUYAMA_COMPRESSION" ≠ some false
  compressor : ∀ id, (env.number? 255 "OKUYAMA_COMPRESSOR").bind CompressorId.ofNat? = some id →
    id = .deflate

/-- **The settings of a command line that says nothing of how to reach the nodes** are those of the
environment, but for four: the endpoints are the parts of their list as they stand there, keys are
in Base64, and values are compressed, with deflate, whatever the environment says. So they are those
of the environment just if that is what it says. -/
theorem Invocation.toConfig_of_silent {args : List String} {env : Environment} {inv : Invocation}
    (h : Invocation.read args env = .ok inv) (hsilent : Silent args) :
    ∃ listed, env "OKUYAMA_ENDPOINTS" = some listed ∧
      inv.connecting.toConfig env =
        { Config.ofEnvironment env with
          endpoints := splitEndpoints listed
          encoding := { (Config.ofEnvironment env).encoding with base64Keys := true }
          compression :=
            { (Config.ofEnvironment env).compression with
              enabled := true
              compressor := .deflate } } ∧
      (inv.connecting.toConfig env = Config.ofEnvironment env ↔ Mirrored env) := by
  obtain ⟨st, rest, st', hrun, hresolve, hscan⟩ := Invocation.exists_of_read h
  obtain ⟨listed, hlisted, hc⟩ :=
    Connecting.ofScan_of_unset (Scan.unset_of_run hsilent hrun hresolve) hscan
  refine ⟨listed, hlisted, ?_⟩
  rw [hc]
  refine ⟨rfl, ?_⟩
  have hflag (o : Option Bool) : true = o.getD true ↔ o ≠ some false := by
    obtain _ | _ | _ := o <;> decide
  have hid (o : Option CompressorId) :
      .deflate = o.getD .deflate ↔ ∀ id, o = some id → id = .deflate := by
    cases o with
    | none => exact ⟨nofun, fun _ => rfl⟩
    | some id => simp [eq_comm]
  -- all other settings are the same on both sides
  simp only [Connecting.toConfig, Config.ofEnvironment, Config.mk.injEq, EncodingSettings.mk.injEq,
    CompressionSettings.mk.injEq, hlisted, Option.map_some, Option.getD_some, Bool.not_false,
    splitEndpoints_eq_entries_iff, hflag, hid, true_and, and_true]
  constructor
  · rintro ⟨hparts, hkeys, henabled, hcompressor⟩
    exact ⟨fun l hl => Option.some.inj (hlisted.symm.trans hl) ▸ hparts, hkeys, henabled, hcompressor⟩
  · intro hm
    exact ⟨hm.endpoints listed hlisted, hm.base64Keys, hm.compression, hm.compressor⟩

/-- An environment that lists two endpoints plainly and gives a number with a zero in front. -/
def plainEnvironment : Environment := fun name =>
  [("OKUYAMA_ENDPOINTS", "x:1,y:2"), ("OKUYAMA_POOL_SIZE", "07"),
    ("OKUYAMA_BASE64_KEYS", " true ")].lookup name

/-- What is asked for there: a value, a log in JSON, and nothing of the connections. -/
def plainInvocation : Invocation :=
  ⟨⟨["x:1", "y:2"], 7, .ofSecs 2, .ofSecs 2, false, false, .deflate, false⟩, .json, .get "k"⟩

theorem Invocation.toConfig_of_silent_plain :
    Invocation.read ["--log-format", "json", "get", "k"] plainEnvironment = .ok plainInvocation ∧
      Silent ["--log-format", "json", "get", "k"] ∧
      plainInvocation.connecting.toConfig plainEnvironment =
        Config.ofEnvironment plainEnvironment := by
  have hread : Invocation.read ["--log-format", "json", "get", "k"] plainEnvironment =
      .ok plainInvocation := by decide +kernel
  have hsilent : Silent ["--log-format", "json", "get", "k"] := by decide +kernel
  obtain ⟨-, -, -, hmirrored⟩ := Invocation.toConfig_of_silent hread hsilent
  refine ⟨hread, hsilent, hmirrored.2 ⟨?_, by decide +kernel, by decide +kernel, ?_⟩⟩
  · rintro _ ⟨rfl⟩
    decide +kernel
  · intro id hid
    cases hid

/-- An environment that lists two endpoints with spaces and asks for plain keys and values. -/
def looseEnvironment : Environment := fun name =>
  [("OKUYAMA_ENDPOINTS", " x:1 ,y:2"), ("OKUYAMA_BASE64_KEYS", "false"),
    ("OKUYAMA_COMPRESSION", "false"), ("OKUYAMA_COMPRESSOR", "2")].lookup name

/-- **The settings of a command line may differ from those of its environment**, though it gives no
switch at all. -/
theorem Invocation.exists_toConfig_ne :
    ∃ inv, Invocation.read ["get", "k"] looseEnvironment = .ok inv ∧ Silent ["get", "k"] ∧
      (inv.connecting.toConfig looseEnvironment).endpoints = [" x:1 ", "y:2"] ∧
      (Config.ofEnvironment looseEnvironment).endpoints = ["x:1", "y:2"] ∧
      inv.connecting.toConfig looseEnvironment ≠ Config.ofEnvironment looseEnvironment :=
  ⟨⟨⟨[" x:1 ", "y:2"], 10, .ofSecs 2, .ofSecs 2, false, false, .deflate, false⟩, .text,
    .get "k"⟩, by decide +kernel, by decide +kernel, by decide +kernel, by decide +kernel,
    by decide +kernel⟩

end TagStore.Program
