import Mathlib.Data.List.Forall2
import TagStore.Proofs.Cluster.Choice
import TagStore.Proofs.Text.Decimal

/-!
# The texts that write endpoints

An endpoint is written as a host, a colon and a port, with any white space around them
(`Endpoint.WrittenIn`). Just these texts are read (`Endpoint.read_eq_ok_iff`), and a text that is
refused has the fault that it is refused for (`Endpoint.faulty_of_read`). The address that an
endpoint is shown with is one of the texts that write it, so it is read back
(`Endpoint.WrittenIn.read_address`). A registry is made of a list of such texts, and of no other
list; where there is more than one reason to refuse a list, the first of them in a fixed order is
told (`Registry.ofEndpoints_exact`).
-/

namespace TagStore

open Text

namespace Endpoint

variable {e : Endpoint} {s : String} {c : Char}

/-- Whether a text writes an endpoint: a host and a port around a colon, with white space around
them or without. -/
def WrittenIn (e : Endpoint) (s : String) : Prop :=
  ∃ left host port right : List Char, s.toList = left ++ (host ++ ':' :: port) ++ right ∧
    (∀ c ∈ left, isBlank c) ∧ (∀ c ∈ right, isBlank c) ∧
    host ≠ [] ∧ (∀ c ∈ host, isHostChar c) ∧ port ≠ [] ∧ (∀ c ∈ port, isDigit c) ∧
    e.host = String.ofList host ∧ e.port = Nat.ofDigitChars 10 port 0 ∧ e.port ≤ 65535

/-- What is wrong with the characters between white space, which write no endpoint. -/
inductive Faulty : List Char → Fault → Prop
  | noColon {cs : List Char} : ':' ∉ cs → Faulty cs .noColon
  | emptyHost {port : List Char} : ':' ∉ port → Faulty (':' :: port) .emptyHost
  | badHost {host port : List Char} : ':' ∉ port → host ≠ [] → (∃ c ∈ host, ¬isHostChar c) →
    Faulty (host ++ ':' :: port) .badHost
  | badPort {host port : List Char} : ':' ∉ port → host ≠ [] → (∀ c ∈ host, isHostChar c) →
    (port = [] ∨ ∃ c ∈ port, ¬isDigit c) → Faulty (host ++ ':' :: port) .badPort
  | greatPort {host port : List Char} : host ≠ [] → (∀ c ∈ host, isHostChar c) → port ≠ [] →
    (∀ c ∈ port, isDigit c) → 65535 < Nat.ofDigitChars 10 port 0 →
    Faulty (host ++ ':' :: port) .greatPort

theorem isBlank_eq_false_of_isHostChar (h : isHostChar c = true) : isBlank c = false := by
  simp only [isHostChar, Bool.or_eq_true, Bool.and_eq_true, decide_eq_true_eq, beq_iff_eq,
    Char.le_def, UInt32.le_iff_toNat_le] at h
  obtain (((h | h) | h) | rfl) | rfl := h
  · exact isBlank_eq_false_of_le (Nat.le_trans (by decide) h.1) (Nat.le_trans h.2 (by decide))
  · exact isBlank_eq_false_of_le (Nat.le_trans (by decide) h.1) (Nat.le_trans h.2 (by decide))
  · exact isBlank_eq_false_of_isDigit h
  · rfl
  · rfl

theorem colon_notMem_of_digits {port : List Char} (h : ∀ c ∈ port, isDigit c) : ':' ∉ port :=
  fun hm => absurd (h _ hm) (by decide)

/-- What stands between the white space of a text that writes an endpoint. -/
theorem trimChars_eq {left host port right : List Char}
    (hs : s.toList = left ++ (host ++ ':' :: port) ++ right) (hleft : ∀ c ∈ left, isBlank c)
    (hright : ∀ c ∈ right, isBlank c) (hhost : ∀ c ∈ host, isHostChar c)
    (hport : ∀ c ∈ port, isDigit c) : trimChars s.toList = host ++ ':' :: port := by
  rw [hs]
  refine trimChars_append hleft (fun c hc => ?_) (by simp) hright
  obtain hc | hc := List.mem_append.1 hc
  · exact isBlank_eq_false_of_isHostChar (hhost c hc)
  · obtain rfl | hc := List.mem_cons.1 hc
    · rfl
    · exact isBlank_eq_false_of_isDigit (hport c hc)

/-- What reading makes of a host and a port. -/
theorem read_of_trimChars {host port : List Char} (hs : trimChars s.toList = host ++ ':' :: port)
    (hcut : ':' ∉ port) (hhost : host ≠ []) :
    read s =
      if !host.all isHostChar then .error .badHost
      else if port.isEmpty || !port.all isDigit then .error .badPort
      else (digitsFrom maxU16 0 port).elim (.error .greatPort)
        fun n => .ok ⟨String.ofList host, n⟩ := by
  obtain ⟨c, cs, rfl⟩ := List.exists_cons_of_ne_nil hhost
  rw [read, hs, splitLast?_append hcut]
  dsimp only
  cases digitsFrom maxU16 0 port <;> rfl

/-- What is read of a text, or what is wrong with it. -/
inductive Outcome (s : String) : Except Fault Endpoint → Prop
  | endpoint {e : Endpoint} : e.WrittenIn s → Outcome s (.ok e)
  | fault {f : Fault} : Faulty (trimChars s.toList) f → Outcome s (.error f)

/-- **A text is read as an endpoint that it writes, or refused for a fault that it has.** -/
theorem outcome_read (s : String) : Outcome s (read s) := by
  cases hcut : splitLast? ':' (trimChars s.toList) with
  | none =>
    rw [read, hcut]
    exact .fault (.noColon (notMem_of_splitLast? hcut))
  | some parts =>
    obtain ⟨host, port⟩ := parts
    obtain ⟨hs, hcolon⟩ := splitLast?_eq_some hcut
    by_cases hhost : host = []
    · rw [read, hcut, hhost]
      refine .fault ?_
      rw [hs, hhost]
      exact .emptyHost hcolon
    rw [read_of_trimChars hs hcolon hhost]
    by_cases hchars : ∀ c ∈ host, isHostChar c
    swap
    · rw [if_pos (by simpa using hchars)]
      exact .fault (hs ▸ .badHost hcolon hhost (by simpa using hchars))
    rw [if_neg (by simpa using hchars)]
    by_cases hdigits : port ≠ [] ∧ ∀ c ∈ port, isDigit c
    swap
    · rw [if_pos (by simpa [imp_iff_not_or] using hdigits)]
      refine .fault (hs ▸ .badPort hcolon hhost hchars ?_)
      simpa [imp_iff_not_or] using hdigits
    rw [if_neg (by simpa using hdigits)]
    obtain ⟨left, right, htext, hleft, hright⟩ := exists_trimChars s.toList
    cases hn : digitsFrom maxU16 0 port with
    | none =>
      refine .fault (hs ▸ .greatPort hhost hchars hdigits.1 hdigits.2 (Nat.lt_of_not_le fun hle => ?_))
      cases hn.symm.trans ((digitsFrom_eq_some_iff (Nat.zero_le _)).2 ⟨hdigits.2, rfl, hle⟩)
    | some n =>
      obtain ⟨-, rfl, hle⟩ := (digitsFrom_eq_some_iff (Nat.zero_le _)).1 hn
      exact .endpoint ⟨left, host, port, right, hs ▸ htext, hleft, hright, hhost, hchars,
        hdigits.1, hdigits.2, rfl, rfl, hle⟩

/-- **Reading is exact:** an endpoint is read of just the texts that write it. -/
theorem read_eq_ok_iff : read s = .ok e ↔ e.WrittenIn s := by
  constructor
  · intro h
    have hread := outcome_read s
    rw [h] at hread
    cases hread with
    | endpoint hw => exact hw
  · rintro ⟨left, host, port, right, hs, hleft, hright, hhost, hchars, hport, hdigits, he, hn, hle⟩
    have hvalue : digitsFrom maxU16 0 port = some e.port :=
      (digitsFrom_eq_some_iff (Nat.zero_le _)).2 ⟨hdigits, hn.symm, hle⟩
    rw [read_of_trimChars (trimChars_eq hs hleft hright hchars hdigits)
      (colon_notMem_of_digits hdigits) hhost, if_neg (by simpa using hchars),
      if_neg (by simpa using ⟨hport, hdigits⟩), hvalue]
    cases e
    exact congrArg _ (congrArg (Endpoint.mk · _) he.symm)

example :
    read "\u00a0a.b-C:0080\n" = .ok ⟨"a.b-C", 80⟩ ∧ read "a:b:1" = .error .badHost ∧
      read "a:65536" = .error .greatPort := by decide +kernel

theorem faulty_of_read {f : Fault} (h : read s = .error f) : Faulty (trimChars s.toList) f := by
  have hread := outcome_read s
  rw [h] at hread
  cases hread with
  | fault hf => exact hf

/-- The text of an address is its host and the decimal digits of its port. -/
theorem address_eq (e : Endpoint) :
    e.address = e.host ++ ":" ++ String.ofList (Nat.toDigits 10 e.port) := rfl

/-- **The address of an endpoint that a text writes is read back.** -/
theorem WrittenIn.read_address (h : e.WrittenIn s) : read e.address = .ok e := by
  obtain ⟨-, host, -, -, -, -, -, hhost, hchars, -, -, he, -, hle⟩ := h
  refine read_eq_ok_iff.2 ⟨[], host, Nat.toDigits 10 e.port, [], ?_, nofun, nofun, hhost, hchars,
    Nat.toDigits_ne_nil, fun c hc => ?_, he, ?_, hle⟩
  · rw [address_eq, he]
    simp
  · exact isDigit_iff.2 (toNat_of_mem_toDigits hc)
  · exact (Nat.ofDigitChars_toDigits (by decide) (by decide)).symm

end Endpoint

namespace Registry

open Endpoint

variable {addresses : List String} {health : HealthSettings}

/-- The endpoints of a list are those that its entries write, in their order. -/
theorem readAll_eq_ok_iff {es : List Endpoint} :
    readAll addresses = .ok es ↔ List.Forall₂ (fun s e => e.WrittenIn s) addresses es := by
  induction addresses generalizing es with
  | nil => simp [readAll, eq_comm]
  | cons s ss ih =>
    rw [readAll]
    cases hs : Endpoint.read s with
    | error f =>
      refine ⟨fun h => ?_, fun h => ?_⟩
      · cases h
      · cases h with
        | cons hw _ => cases hs.symm.trans (read_eq_ok_iff.2 hw)
    | ok e =>
      cases hss : readAll ss with
      | error x =>
        refine ⟨fun h => ?_, fun h => ?_⟩
        · cases h
        · cases h with
          | cons _ hws => cases hss.symm.trans (ih.2 hws)
      | ok es' =>
        constructor
        · intro h
          cases h
          exact .cons (read_eq_ok_iff.1 hs) (ih.1 hss)
        · intro h
          cases h with
          | cons hw hws =>
            cases hs.symm.trans (read_eq_ok_iff.2 hw)
            cases hss.symm.trans (ih.2 hws)
            rfl

/-- A list is refused for the first of its entries that writes no endpoint. -/
theorem readAll_eq_error {x : ConfigError} (h : readAll addresses = .error x) :
    ∃ before s after f, addresses = before ++ s :: after ∧
      (∀ t ∈ before, ∃ e : Endpoint, e.WrittenIn t) ∧ Endpoint.read s = .error f ∧
      x = .invalidEndpoint s f.message := by
  induction addresses with
  | nil => cases h
  | cons s ss ih =>
    rw [readAll] at h
    cases hs : Endpoint.read s with
    | error f =>
      rw [hs] at h
      cases h
      exact ⟨[], s, ss, f, rfl, List.forall_mem_nil _, hs, rfl⟩
    | ok e =>
      rw [hs] at h
      cases hss : readAll ss with
      | ok es => simp [hss, Except.map] at h
      | error y =>
        simp only [hss, Except.map, Except.error.injEq] at h
        subst h
        obtain ⟨before, t, after, f, rfl, hbefore, ht, hy⟩ := ih hss
        exact ⟨s :: before, t, after, f, rfl,
          List.forall_mem_cons.2 ⟨⟨e, read_eq_ok_iff.1 hs⟩, hbefore⟩, ht, hy⟩

/-- Why no registry is made of a list of texts. -/
inductive Refused (addresses : List String) (health : HealthSettings) : ConfigError → Prop
  | noEntry : addresses = [] → Refused addresses health .noEndpoints
  | noInterval : addresses ≠ [] → health.recheckInterval.isZero →
    Refused addresses health
      (.invalidSetting "health.recheck_interval" "must be greater than zero")
  | badEntry {before after : List String} {s : String} {f : Fault} :
    addresses = before ++ s :: after → health.recheckInterval.isZero = false →
    (∀ t ∈ before, ∃ e : Endpoint, e.WrittenIn t) → (¬∃ e : Endpoint, e.WrittenIn s) →
    Faulty (trimChars s.toList) f → Refused addresses health (.invalidEndpoint s f.message)

namespace Refused

/-- No list that is refused has only entries that write endpoints. -/
theorem exists_bad {x : ConfigError} (h : Refused addresses health x) :
    addresses = [] ∨ health.recheckInterval.isZero ∨
      ∃ s ∈ addresses, ¬∃ e : Endpoint, e.WrittenIn s := by
  cases h with
  | noEntry h => exact .inl h
  | noInterval _ h => exact .inr (.inl h)
  | @badEntry before after s f hsplit _ _ hbad _ =>
    exact .inr (.inr ⟨s, hsplit ▸ by simp, hbad⟩)

end Refused

theorem refused_of_error {x : ConfigError} (h : ofEndpoints addresses health = .error x) :
    Refused addresses health x := by
  by_cases hne : addresses = []
  · rw [ofEndpoints, if_pos hne] at h
    cases h
    exact .noEntry hne
  rw [ofEndpoints, if_neg hne] at h
  split at h
  · rename_i hpos
    cases hall : readAll addresses with
    | ok es =>
      rw [hall] at h
      cases h
    | error y =>
      rw [hall] at h
      cases h
      obtain ⟨before, s, after, f, hsplit, hbefore, hs, rfl⟩ := readAll_eq_error hall
      refine .badEntry hsplit (decide_eq_false (Nat.ne_of_gt hpos)) hbefore ?_ (faulty_of_read hs)
      rintro ⟨e, he⟩
      cases hs.symm.trans (read_eq_ok_iff.2 he)
  · rename_i hzero
    cases h
    exact .noInterval hne (decide_eq_true (Nat.eq_zero_of_not_pos hzero))

/-- The endpoints of a registry are those that the entries of its list write. -/
theorem nodes_of_ok {r : Registry} (h : ofEndpoints addresses health = .ok r) :
    addresses ≠ [] ∧ health.recheckInterval.isZero = false ∧
      ∃ es : List Endpoint, List.Forall₂ (fun s e => e.WrittenIn s) addresses es ∧
        r.nodes = es.map fun e => ⟨e, false, 0, none⟩ := by
  obtain ⟨hne, hpos, es, hes, rfl⟩ := ofEndpoints_eq_ok h
  exact ⟨hne, decide_eq_false (Nat.ne_of_gt hpos), es, readAll_eq_ok_iff.1 hes, rfl⟩

/-- The entry at a place writes the endpoint at that place. -/
theorem writtenIn_of_nodes {r : Registry} {es : List Endpoint}
    (hes : List.Forall₂ (fun s e => e.WrittenIn s) addresses es)
    (hr : r.nodes = es.map fun e => ⟨e, false, 0, none⟩) {i : Nat} {s : String}
    (hs : addresses[i]? = some s) :
    ∃ e : Endpoint, e.WrittenIn s ∧ (r.nodes[i]?).map (·.endpoint) = some e := by
  obtain ⟨hi, rfl⟩ := List.getElem?_eq_some_iff.1 hs
  have hi' : i < es.length := hes.length_eq ▸ hi
  refine ⟨es[i], hes.get hi hi', ?_⟩
  rw [hr, List.getElem?_map, List.getElem?_eq_getElem hi']
  rfl

/-- **A registry is made of just the lists of texts that write endpoints.** -/
theorem ofEndpoints_exact (addresses : List String) (health : HealthSettings) :
    ((∃ r, ofEndpoints addresses health = .ok r) ↔
      addresses ≠ [] ∧ health.recheckInterval.isZero = false ∧
        ∀ s ∈ addresses, ∃ e : Endpoint, e.WrittenIn s) ∧
    (∀ r, ofEndpoints addresses health = .ok r → r.size = addresses.length ∧
      ∀ i s, addresses[i]? = some s → ∃ e : Endpoint, e.WrittenIn s ∧
        (r.nodes[i]?).map (·.endpoint) = some e ∧
        r.address i = e.host ++ ":" ++ String.ofList (Nat.toDigits 10 e.port) ∧
        Endpoint.read (r.address i) = .ok e) ∧
    ∀ x, ofEndpoints addresses health = .error x → Refused addresses health x := by
  refine ⟨⟨fun ⟨r, h⟩ => ?_, fun ⟨hne, hi, hall⟩ => ?_⟩, fun r h => ?_, fun x => refused_of_error⟩
  · obtain ⟨hne, hi, es, hes, hnodes⟩ := nodes_of_ok h
    refine ⟨hne, hi, fun s hs => ?_⟩
    obtain ⟨i, hs⟩ := List.mem_iff_getElem?.1 hs
    obtain ⟨e, he, -⟩ := writtenIn_of_nodes hes hnodes hs
    exact ⟨e, he⟩
  · cases hof : ofEndpoints addresses health with
    | ok r => exact ⟨r, rfl⟩
    | error x =>
      obtain h | h | ⟨s, hs, hbad⟩ := (refused_of_error hof).exists_bad
      · exact absurd h hne
      · cases hi.symm.trans h
      · exact absurd (hall s hs) hbad
  · obtain ⟨-, -, es, hes, hnodes⟩ := nodes_of_ok h
    refine ⟨by rw [size, hnodes, List.length_map, hes.length_eq], fun i s hs => ?_⟩
    obtain ⟨e, he, hnode⟩ := writtenIn_of_nodes hes hnodes hs
    have haddress : r.address i = e.address := by
      obtain ⟨node, hi, rfl⟩ := Option.map_eq_some_iff.1 hnode
      rw [address, hi]
      rfl
    exact ⟨e, he, hnode, haddress.trans e.address_eq, haddress ▸ he.read_address⟩

end Registry

end TagStore
