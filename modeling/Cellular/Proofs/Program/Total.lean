import Cellular.Proofs.Tree.Compiled
import Cellular.Proofs.Tree.Printed
import Cellular.Proofs.Tree.Validated

/-!
# Loading never fails otherwise

A text is loaded, or it cannot be read, or its program is rejected with problems, and in
memory that has room for its neighbourhood the same comes of it. No check, no printer and no
engine meets anything unknown on the way: as trees, the programs that are read are validated,
printed and run with the same outcome, and on trees each of these stages has faults of its own
that do not occur.
-/

namespace Cellular

variable {source : String}

theorem load_of_validate {program : List Declaration} (read : readProgram source = .ok program) :
    load source = ((validate program).mapError .invalid).map Validated.compile := by
  rw [load, readValidated, read]
  simp only [Except.mapError, ok_bind]
  cases validate program <;> rfl

theorem loadInMemory_eq {memory : Nat} (room : ∀ program, readProgram source = .ok program →
    (Outline.ofProgram program).1.lengthFault? memory = none) :
    loadInMemory memory source = load source := by
  rw [loadInMemory, load, readValidatedInMemory, readValidated]
  cases read : readProgram source with
  | error fault => rfl
  | ok program =>
      simp only [Except.mapError, ok_bind, room program read]

/-- A program that was read is printed like its tree. -/
theorem exists_printed {program : List Declaration} (read : readProgram source = .ok program) :
    ∃ text, printProgram program = .ok text ∧
      (programTree Name.word program).printProgram = .ok text := by
  have readable := readable_of_readProgram read
  exact ⟨_, printProgram_eq readable, printProgram_programTree readable⟩

/-- If the program of a text is validated, compiling and running it finds what it looks up. -/
theorem settled_of_validate {program : List Declaration} {validated : Validated}
    (read : readProgram source = .ok program) (done : validate program = .ok validated) :
    validated.Settled ∧ ∀ engine buffers, Reachable validated.compile engine →
      engine.buffers = some buffers → engine.Steady buffers := by
  rcases accepted_of_validate done with ⟨parts, divided, accepted⟩
  have loaded : Loaded source validated.compile program parts validated :=
    ⟨read, divided, accepted, rfl⟩
  constructor
  · exact accepted.settled
  · intro engine buffers reachable ready
    apply (reachable.sound loaded.sound).steady _ ready
    rw [reachable.program_eq]
    exact loaded.written

/-- A program that was read is validated like its tree, in any memory that has room for its
neighbourhood. -/
theorem validate_programTree_of_room {program : List Declaration}
    (read : readProgram source = .ok program) {memory : Nat}
    (room : (Outline.ofProgram program).1.lengthFault? memory = none) :
    (∀ validated, validate program = .ok validated →
      (programTree Name.word program).validate memory = .ok validated.bare.tree) ∧
    ∀ problems, validate program = .error (.rejected problems) →
      (programTree Name.word program).validate memory =
        .error (.rejected (problems.map Problem.bare)) := by
  rcases Tree.validate_programTree (readable_of_readProgram read) room with
    ⟨validated, done, accepted⟩ | ⟨problems, _, done, rejected⟩
  · rw [done]
    exact ⟨fun _ same => Except.ok.inj same ▸ accepted, nofun⟩
  · rw [done]
    refine ⟨nofun, fun _ same => ?_⟩
    rw [← ValidationFault.rejected.inj (Except.error.inj same)]
    exact rejected

/-- A text is loaded, or it cannot be read, or its program has problems, and nothing else
happens. The same comes of the stages on trees, which look up every tag, part and name, and of
every engine that runs what was loaded. Memory makes no difference, if there is enough for the
neighbourhood. -/
theorem load_total (source : String) :
    ((∃ fault, readProgram source = .error fault ∧ load source = .error (.unread fault)) ∨
      ∃ program, readProgram source = .ok program ∧
        -- whatever was read is printed
        (∃ text, printProgram program = .ok text ∧
          (programTree Name.word program).printProgram = .ok text) ∧
        ((∃ problems, problems ≠ [] ∧ load source = .error (.invalid (.rejected problems)) ∧
            ∀ memory, (Outline.ofProgram program).1.lengthFault? memory = none →
              (programTree Name.word program).validate memory =
                .error (.rejected (problems.map Problem.bare))) ∨
          ∃ validated : Validated, load source = .ok validated.compile ∧
            (∀ memory, (Outline.ofProgram program).1.lengthFault? memory = none →
              (programTree Name.word program).validate memory = .ok validated.bare.tree) ∧
            validated.Settled ∧
            -- and every engine that has a grid goes on
            ∀ engine buffers, Reachable validated.compile engine →
              engine.buffers = some buffers → engine.Steady buffers)) ∧
    -- in any memory that has room for the neighbourhood
    ∀ memory, (∀ program, readProgram source = .ok program →
        (Outline.ofProgram program).1.lengthFault? memory = none) →
      loadInMemory memory source = load source := by
  refine ⟨?_, fun memory room => loadInMemory_eq room⟩
  cases read : readProgram source with
  | error fault =>
      left
      refine ⟨fault, rfl, ?_⟩
      rw [load, readValidated, read]
      rfl
  | ok program =>
      right
      refine ⟨program, rfl, exists_printed read, ?_⟩
      rcases validate_cases (readable_of_readProgram read) with
        ⟨_, validated, done⟩ | ⟨_, problems, found, done⟩
      · right
        have loaded : load source = .ok validated.compile := by
          rw [load_of_validate read, done]
          rfl
        exact ⟨validated, loaded,
          fun memory room => (validate_programTree_of_room read room).1 validated done,
          settled_of_validate read done⟩
      · left
        have refused : load source = .error (.invalid (.rejected problems)) := by
          rw [load_of_validate read, done]
          rfl
        exact ⟨problems, found, refused,
          fun memory room => (validate_programTree_of_room read room).2 problems done⟩

theorem load_total_ring :
    (∀ program, readProgram ringSource = .ok program →
      (Outline.ofProgram program).1.lengthFault? 24 = none) ∧
    ∃ (validated : Validated) (engine : Engine) (buffers : Buffers),
      load ringSource = .ok validated.compile ∧
      loadInMemory 24 ringSource = .ok validated.compile ∧
      (programTree Name.word ringDeclarations).validate 24 = .ok validated.bare.tree ∧
      validated.Settled ∧ Reachable validated.compile engine ∧ engine.buffers = some buffers ∧
      engine.Steady buffers := by
  have room : ∀ program, readProgram ringSource = .ok program →
      (Outline.ofProgram program).1.lengthFault? 24 = none := by
    intro program read
    obtain rfl := Except.ok.inj (readProgram_ring.symm.trans read)
    decide +kernel
  refine ⟨room, ?_⟩
  rcases load_ring with ⟨compiled, engine, loaded, _, started⟩
  rcases load_total ringSource with ⟨⟨fault, _, unread⟩ |
    ⟨program, read, _, ⟨problems, _, refused, _⟩ | ⟨validated, done, accepted, settled, steady⟩⟩,
    bounded⟩
  · exact absurd (loaded.symm.trans unread) nofun
  · exact absurd (loaded.symm.trans refused) nofun
  · have tree := accepted 24 (room program read)
    obtain rfl := Except.ok.inj (readProgram_ring.symm.trans read)
    obtain rfl := Except.ok.inj (done.symm.trans loaded)
    have reachable : Reachable validated.compile engine := .started .fresh started
    rcases bind_eq_ok_iff.mp started with ⟨grid, _, known⟩
    obtain rfl := pure_eq_ok_iff.mp known
    exact ⟨validated, _, _, done, (bounded 24 room).trans done, tree, settled, reachable, rfl,
      steady _ _ reachable rfl⟩

end Cellular
