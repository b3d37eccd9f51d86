import TagStore.Program.Run
import TagStore.Proofs.Client.VersionToken

/-!
# Lookups of the program

Six commands look something up. Each runs one operation of a client and prints what that brings, a
line for each item (`Command.Looks`). Where nothing is found the exit status tells it, except after
`multi-get`, which ends like a success whatever it brings (`run_of_lookup`).
-/

namespace TagStore.Program

variable {ω α : Type}

/-- Whether a command looks something up by an operation, and the lines that tell the items of what
that brings. -/
inductive Command.Looks : {α : Type} → Command → Operation α → (α → List String) → Prop
  | get (key : String) : Looks (.get key) (.get key) fun v => v.toList.map Value.display
  | remove (key : String) : Looks (.remove key) (.remove key) fun v => v.toList.map Value.display
  | tagKeys (tag : String) (includeDeleted : Bool) :
    Looks (.tagKeys tag includeDeleted) (.getTagKeys tag includeDeleted) id
  | pairs (tag : String) :
    Looks (.pairs tag) (.getPairsByTag tag) (·.map fun p => pairLine p.key p.value.display)
  | multiGet (keys : List String) : Looks (.multiGet keys) (.getMulti keys) (·.map Value.display)
  | versionedGet (key : String) :
    Looks (.versionedGet key) (.getVersioned key)
      fun v => v.toList.map fun v => pairLine v.value.display v.version

/-- Whether a command asks for several keys. -/
def Command.asksForSeveral : Command → Bool
  | multiGet _ => true
  | _ => false

/-- A lookup makes output of what its operation brings, and tells by the status that there is no
item, unless it asks for several keys. -/
theorem Command.Looks.run_eq {cmd : Command} {op : Operation α} {items : α → List String}
    (h : cmd.Looks op items) (net : Network ω) (c : Client ω) :
    cmd.run net c =
      answer (fun a => if cmd.asksForSeveral then ⟨0, items a⟩ else .found (items a))
        (op.run net c) := by
  cases h <;> rfl

theorem answer_ok {σ : Type} (render : α → Output) (a : α) (c : σ) :
    answer render ((.ok a : Except ClientError α), c) = (.ok (render a), c) := rfl

/-- **What a lookup leaves behind.** If its operation succeeds, the program prints the items in
order, a line for each. The exit status is 0 exactly if there is an item or the command asks for
several keys, and otherwise it is 1. -/
theorem run_of_lookup {net : Network ω} {args : List String} {env : Environment} {s : ω}
    {inv : Invocation} {c c' : Client ω} {op : Operation α} {items : α → List String} {a : α}
    (hread : Invocation.read args env = .ok inv)
    (hbuild : Client.build (inv.connecting.toConfig env) {} s = .ok c)
    (hlooks : inv.command.Looks op items) (hrun : op.run net c = (.ok a, c')) :
    ∃ status, Program.run net args env s =
        (⟨status, String.join ((items a).map (· ++ "\n")), ""⟩, c'.pool.net) ∧
      (status = 0 ↔ items a ≠ [] ∨ inv.command.asksForSeveral = true) ∧
      (status = 1 ↔ items a = [] ∧ inv.command.asksForSeveral = false) := by
  have hcommand := hlooks.run_eq net c
  rw [hrun] at hcommand
  rw [Program.run, hread]
  simp only [hbuild, hcommand]
  by_cases hseveral : inv.command.asksForSeveral = true
  · exact ⟨0, by rw [hseveral]; rfl, by simp [hseveral], by simp [hseveral]⟩
  · by_cases hitems : items a = []
    · exact ⟨1, by simp [hseveral, hitems, answer_ok, Output.found, Outcome.ofResult],
        by simp [hseveral, hitems], by simp [hseveral, hitems]⟩
    · exact ⟨0, by simp [hseveral, hitems, answer_ok, Output.found, Outcome.ofResult],
        by simp [hseveral, hitems], by simp [hseveral, hitems]⟩

/-- What is asked for at `a:1`. -/
def asking (cmd : Command) : Invocation :=
  ⟨⟨["a:1"], 10, .ofSecs 2, .ofSecs 2, false, false, .deflate, false⟩, .text, cmd⟩

theorem build_asking (cmd : Command) :
    Client.build ((asking cmd).connecting.toConfig fun _ => none) {} ⟨(0, []), []⟩ =
      .ok .untried := rfl

/-- Two keys with their values, on a server that answers with them. -/
def twoPairs : Network (Recorded (Nat × Bytes)) :=
  (Network.answering "23,true,YQ==,Yg==\n23,true,Yw==,ZA==\nEND\n").recorded

theorem run_of_lookup_pairs :
    ∃ state, Program.run twoPairs ["-e", "a:1", "pairs", "t"] (fun _ => none) ⟨(0, []), []⟩ =
      (⟨0, "a\tb\nc\td\n", ""⟩, state) := by
  have hread : Invocation.read ["-e", "a:1", "pairs", "t"] (fun _ => none) =
      .ok (asking (.pairs "t")) := by decide +kernel
  have hfound : ((Operation.getPairsByTag "t").run twoPairs .untried).1.map
      (·.map fun p => pairLine p.key p.value.display) = .ok ["a\tb", "c\td"] := by decide +kernel
  obtain ⟨ps, c', hrun, hlines⟩ := Operation.exists_of_map hfound
  obtain ⟨status, hout, hzero, -⟩ := run_of_lookup hread (build_asking _) (.pairs "t") hrun
  simp only [hlines] at hout hzero
  obtain rfl : status = 0 := hzero.2 (.inl (by decide))
  exact ⟨_, hout⟩

/-- A server that has none of the keys it is asked for. -/
def noValues : Network (Recorded (Nat × Bytes)) := (Network.answering "END\n").recorded

/-- **Several keys of which none is found** end the program like a success. -/
theorem multiGet_of_nothing :
    (∃ c', (Operation.getMulti ["a"]).run noValues .untried = (.ok [], c')) ∧
      (Program.run noValues ["-e", "a:1", "multi-get", "a"] (fun _ => none) ⟨(0, []), []⟩).1 =
        ⟨0, "", ""⟩ := by
  have hfound : ((Operation.getMulti ["a"]).run noValues .untried).1.map
      (·.map Value.display) = .ok [] := by decide +kernel
  obtain ⟨values, c', hrun, hlines⟩ := Operation.exists_of_map hfound
  rw [List.map_eq_nil_iff.1 hlines] at hrun
  exact ⟨⟨c', hrun⟩, by decide +kernel⟩

end TagStore.Program
