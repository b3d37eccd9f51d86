import TagStore.Program.Arguments
import TagStore.Proofs.Except

/-!
# What arguments give

A list of arguments gives no switch that none of them names. Every step of a scan keeps to the
switches that its argument names (`Scan.Only`), so what has been read when the command comes was
named in front of it (`Scan.only_of_run`). The one exception is a switch that still waits for its
value and takes the name of the command for it; if it does not allow such a value, the list is
refused in the end (`Scan.run_of_stuck`).
-/

namespace TagStore.Program

/-- Whether an argument names a switch: by its long name, or by its short one among those that share
a dash. -/
def Switch.namedBy (s : Switch) (a : String) : Bool :=
  match a.toList with
  | '-' :: '-' :: cs => cs.takeWhile (· ≠ '=') = s.name.toList
  | '-' :: cs => cs.any fun c => s.short = some c
  | _ => false

theorem Switch.namedBy_of_short {s : Switch} {a : String} {c c' : Char} {cs : List Char}
    (ha : a.toList = '-' :: c :: cs) (hc : c ≠ '-') (hmem : c' ∈ c :: cs)
    (hs : s.short = some c') : s.namedBy a = true := by
  rw [namedBy, ha]
  split
  · rename_i heq
    cases heq
    exact absurd rfl hc
  · rename_i heq
    cases heq
    exact List.any_eq_true.2 ⟨c', hmem, decide_eq_true hs⟩
  · rename_i hne
    exact absurd rfl (hne _)

namespace Scan

variable {g : Grammar} {P : String → Prop} {st st' : Scan} {s : Switch} {v : String}
  {cs : List Char}

/-- A switch that is accepted is noted with its value, and nothing else happens. -/
theorem accept_eq_ok (h : st.accept s v = .ok st') :
    st' = { st with given := (s.name, v) :: st.given } := by
  unfold accept at h
  split at h
  · split at h
    · cases h
    · exact (Except.ok.inj h).symm
  · split at h
    · cases h
    · exact (Except.ok.inj h).symm
  · cases h

/-- Whether only switches of certain names have been read. -/
structure Only (g : Grammar) (P : String → Prop) (st : Scan) : Prop where
  given : ∀ p ∈ st.given, P p.1
  pending : ∀ s v, st.pending = some (s, v) → s ∈ g.switches ∧ P s.name

theorem awaits_iff : st.awaits = true ↔ ∃ s, st.pending = some (s, none) := by
  rw [awaits]
  split <;> simp_all

namespace Only

protected theorem accept (h : st.Only g P) (hs : P s.name) (hst : st.accept s v = .ok st') :
    st'.Only g P := by
  rw [accept_eq_ok hst]
  exact ⟨List.forall_mem_cons.2 ⟨hs, h.given⟩, h.pending⟩

protected theorem resolve (h : st.Only g P) (hst : st.resolve = .ok st') : st'.Only g P := by
  unfold Scan.resolve at hst
  split at hst
  · cases hst
    exact h
  · cases hst
  · rename_i s v hp
    have hnone : Only g P { st with pending := none } := ⟨h.given, fun _ _ hp => nomatch hp⟩
    exact hnone.accept (h.pending s _ hp).2 hst

protected theorem give (h : st.Only g P) (hs : P s.name) (hst : st.give s v = .ok st') :
    st'.Only g P := by
  obtain ⟨st₁, hr, hst⟩ := exists_of_bind_ok hst
  exact (h.resolve hr).accept hs hst

protected theorem await (h : st.Only g P) (hmem : s ∈ g.switches) (hs : P s.name)
    (hst : st.await s = .ok st') : st'.Only g P := by
  obtain ⟨st₁, hr, rfl⟩ := exists_of_map_ok hst
  refine ⟨(h.resolve hr).given, fun s' v hp => ?_⟩
  cases hp
  exact ⟨hmem, hs⟩

protected theorem word {a : String} (h : st.Only g P) (hst : st.word g a = .ok st') :
    st'.Only g P := by
  rw [Scan.word] at hst
  split at hst
  · obtain ⟨st₁, hr, rfl⟩ := exists_of_map_ok hst
    exact ⟨(h.resolve hr).given, (h.resolve hr).pending⟩
  · cases hst

protected theorem long (h : st.Only g P)
    (hP : ∀ s ∈ g.switches, cs.takeWhile (· ≠ '=') = s.name.toList → P s.name)
    (hst : st.long g cs = .ok st') : st'.Only g P := by
  rw [Scan.long] at hst
  split at hst
  · cases hst
  · rename_i s hfind
    have hmem := List.mem_of_find?_eq_some hfind
    have hs : P s.name := by
      refine hP s hmem ?_
      have hname := List.find?_some hfind
      simp only [decide_eq_true_eq] at hname
      rw [hname, String.toList_ofList]
    split at hst
    · exact h.give hs hst
    · exact h.await hmem hs hst
    · cases hst
    · exact h.give hs hst

protected theorem short (h : st.Only g P)
    (hP : ∀ s ∈ g.switches, ∀ c ∈ cs, s.short = some c → P s.name)
    (hst : st.short g cs = .ok st') : st'.Only g P := by
  induction cs generalizing st with
  | nil =>
    cases hst
    exact h
  | cons c cs ih =>
    rw [Scan.short] at hst
    split at hst
    · cases hst
    · rename_i s hfind
      have hmem := List.mem_of_find?_eq_some hfind
      have hs : P s.name := hP s hmem c List.mem_cons_self (by simpa using List.find?_some hfind)
      split at hst
      · exact h.await hmem hs hst
      · exact h.give hs hst
      · exact h.give hs hst
      · obtain ⟨st₁, hg, hst⟩ := exists_of_bind_ok hst
        exact ih (h.give hs hg) (fun s hs c hc => hP s hs c (List.mem_cons_of_mem _ hc)) hst

/-- Words give no switches. -/
theorem run_words {args : List String} {rest : Option (String × List String)} (h : st.Only g P)
    (hst : run g true st args = .ok (st', rest)) : st'.Only g P := by
  induction args generalizing st with
  | nil =>
    cases hst
    exact h
  | cons a args ih =>
    rw [run, if_pos rfl] at hst
    obtain ⟨st₁, hw, hst⟩ := exists_of_bind_ok hst
    exact ih (h.word hw) hst

end Only

/-! ## Values that are not allowed -/

variable {e : Halt}

theorem give_of_stuck (he : st.resolve = .error e) (s : Switch) (v : String) :
    st.give s v = .error e := by
  rw [give, he]
  rfl

theorem await_of_stuck (he : st.resolve = .error e) (s : Switch) : st.await s = .error e := by
  rw [await, he]
  rfl

theorem word_of_stuck (he : st.resolve = .error e) (a : String) : st.word g a ≠ .ok st' := by
  rw [word, he]
  split <;> nofun

theorem long_of_stuck (he : st.resolve = .error e) : st.long g cs ≠ .ok st' := by
  rw [long]
  split
  · nofun
  · split <;> simp [give_of_stuck he, await_of_stuck he]

theorem short_of_stuck (he : st.resolve = .error e) {c : Char} :
    st.short g (c :: cs) ≠ .ok st' := by
  rw [short]
  split
  · nofun
  · split <;> simp [give_of_stuck he, await_of_stuck he, Except.bind]

/-- **A value that is not allowed stays:** no further argument is read. -/
theorem run_of_stuck {onlyWords : Bool} {args : List String} {rest : Option (String × List String)}
    (hp : st.pending = some (s, some v)) (he : st.resolve = .error e)
    (hst : run g onlyWords st args = .ok (st', rest)) : st' = st := by
  induction args generalizing onlyWords with
  | nil =>
    cases hst
    rfl
  | cons a args ih =>
    rw [run] at hst
    split at hst
    · obtain ⟨st₁, hw, -⟩ := exists_of_bind_ok hst
      exact absurd hw (word_of_stuck he a)
    split at hst
    · cases hst
      rfl
    split at hst
    · exact ih hst
    · obtain ⟨st₁, hl, -⟩ := exists_of_bind_ok hst
      exact absurd hl (long_of_stuck he)
    · obtain ⟨st₁, hs, -⟩ := exists_of_bind_ok hst
      exact absurd hs (short_of_stuck he)
    · split at hst
      · rename_i hnone
        cases hp.symm.trans hnone
      · obtain ⟨st₁, hw, -⟩ := exists_of_bind_ok hst
        exact absurd hw (word_of_stuck he a)

/-- A value that is not allowed is noted all the same when it is the next argument, and stays. -/
theorem resolve_of_refused {a : String} {args : List String} {rest : Option (String × List String)}
    (hp : st.pending = some (s, none)) (hdash : a.toList.head? ≠ some '-')
    (hrefuse : ∀ st st' : Scan, st.accept s a ≠ .ok st')
    (hst : run g false st (a :: args) = .ok (st', rest)) : ∃ e, st'.resolve = .error e := by
  have hawaits : st.awaits = true := by rw [awaits, hp]
  rw [run, if_neg Bool.false_ne_true, hawaits, if_neg (by simp)] at hst
  split at hst
  · exact absurd (by simp [*]) hdash
  · exact absurd (by simp [*]) hdash
  · exact absurd (by simp [*]) hdash
  · rw [hp] at hst
    cases hr : accept { st with pending := none } s a with
    | ok st₁ => exact absurd hr (hrefuse _ _)
    | error e =>
      have hresolve : resolve { st with pending := some (s, some a) } = .error e := hr
      exact ⟨e, by rw [run_of_stuck rfl hresolve hst, hresolve]⟩

/-- **What is read in front of the command is named there.** If the arguments in front of the first
name of a command name only certain switches, and these refuse such a name for their value, then
only they are read, or the list is refused. -/
theorem only_of_run {args : List String} {rest : Option (String × List String)} (h : st.Only g P)
    (hP : ∀ a ∈ args.takeWhile (fun a => !g.commands.contains a), ∀ s ∈ g.switches,
      s.namedBy a → P s.name)
    (hdash : ∀ c ∈ g.commands, c.toList.head? ≠ some '-')
    (hrefuse : ∀ s ∈ g.switches, P s.name → ∀ c ∈ g.commands, ∀ st st' : Scan,
      st.accept s c ≠ .ok st')
    (hst : run g false st args = .ok (st', rest)) :
    st'.Only g P ∨ ∃ e, st'.resolve = .error e := by
  induction args generalizing st with
  | nil =>
    cases hst
    exact .inl h
  | cons a args ih =>
    by_cases ha : g.commands.contains a = true
    · -- the name of a command ends the arguments, unless a switch waits for its value
      have hc : a ∈ g.commands := List.contains_iff_mem.1 ha
      by_cases hawaits : st.awaits = true
      · obtain ⟨s, hp⟩ := awaits_iff.1 hawaits
        obtain ⟨hs, hPs⟩ := h.pending s none hp
        exact .inr (resolve_of_refused hp (hdash a hc) (hrefuse s hs hPs a hc) hst)
      · rw [run, if_neg Bool.false_ne_true, if_pos (by simp [hc, hawaits])] at hst
        cases hst
        exact .inl h
    · rw [Bool.not_eq_true] at ha
      rw [List.takeWhile_cons, if_pos (by rw [ha]; rfl), List.forall_mem_cons] at hP
      obtain ⟨hPa, hP⟩ := hP
      rw [run, if_neg Bool.false_ne_true, ha, Bool.and_false, if_neg Bool.false_ne_true] at hst
      split at hst
      · exact .inl (h.run_words hst)
      · rename_i cs _ hcs
        obtain ⟨st₁, hl, hst⟩ := exists_of_bind_ok hst
        refine ih (h.long (fun s hs hname => hPa s hs ?_) hl) hP hst
        simpa [Switch.namedBy, hcs] using hname
      · rename_i c cs _ hlong hcs
        obtain ⟨st₁, hshort, hst⟩ := exists_of_bind_ok hst
        refine ih (h.short (fun s hs c' hc' hname => hPa s hs ?_) hshort) hP hst
        exact Switch.namedBy_of_short hcs hlong hc' hname
      · split at hst
        · rename_i s hp
          have hnote : Only g P { st with pending := some (s, some a) } := by
            refine ⟨h.given, fun s' v hp' => ?_⟩
            cases hp'
            exact h.pending s none hp
          exact ih hnote hP hst
        · obtain ⟨st₁, hw, hst⟩ := exists_of_bind_ok hst
          exact ih (h.word hw) hP hst

end Scan

end TagStore.Program
