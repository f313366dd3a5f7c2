import Cellular.Proofs.Engine.Renamed
import Cellular.Proofs.Validation.Acceptance

/-!
# Order and names do not matter

A program may be written in another order and with other names for its states. It is
accepted then, too, and starts on the same inputs under these names. From there on every
cell shows the other name of what it shows in a run of the first program, although numbers,
clauses and the order of visits are others.
-/

namespace Cellular

/-! ## Initial assignments -/

namespace Table

variable {κ ν μ : Type} [DecidableEq κ]

/-- The table with the images of all values. -/
def map (f : ν → μ) (table : Table κ ν) : Table κ μ where
  entries := table.entries.map fun entry => (entry.1, f entry.2)
  nodup := by
    rw [List.map_map]
    exact table.nodup

end Table

namespace Grid

variable {α β : Type}

theorem set_map (f : α → β) (grid : Grid α) {cell : Vec} (inside : isCell cell grid.shape)
    (value : α) : (grid.map f).set cell (f value) = (grid.set cell value).map f := by
  have inside' : isCell cell (grid.map f).shape := inside
  apply ext_get? (by rfl)
  intro other _
  rw [get?_set _ inside', get?_map, get?_map, get?_set _ inside]
  split <;> rfl

theorem fill_map (f : α → β) (shape : List Nat) (value : α) :
    (fill shape value).map f = fill shape (f value) := by
  rw [fill_eq_ofFn, fill_eq_ofFn, map_ofFn]

theorem allSome?_map (f : α → β) (grid : Grid (Option α)) :
    (grid.map (Option.map f)).allSome? = grid.allSome?.map (map f) := by
  have kept : (grid.map (Option.map f)).cells.filterMap id = (grid.cells.filterMap id).map f := by
    rw [map, Array.filterMap_map, Array.map_filterMap]
    rfl
  simp only [allSome?, kept, Array.size_map]
  by_cases complete : (grid.cells.filterMap id).size = cellCount grid.shape
  · rw [dif_pos complete, dif_pos (by exact complete)]
    rfl
  · rw [dif_neg complete, dif_neg (by exact complete)]
    rfl

end Grid

namespace Program.Renamed

variable {rename : String → String} {first second : Program}
  (renamed : first.Renamed rename second)

include renamed

theorem newShape_eq (dimensions : Option (List Scalar)) (initial : Option (Table Vec String)) :
    second.newShape dimensions (initial.map (Table.map rename)) =
      first.newShape dimensions initial := by
  have shape : second.resolveDimensions dimensions = first.resolveDimensions dimensions := by
    simp only [resolveDimensions, renamed.sizes, renamed.rank]
  have missing : second.registry.default?.isNone = first.registry.default?.isNone := by
    have names := congrArg Option.isNone renamed.registry.default
    rwa [Option.isNone_map, Option.isNone_map, Option.isNone_map] at names
  rw [newShape, newShape, shape, missing, Option.isNone_map]

private theorem place_alike (grid : Grid (Option Nat)) (entry : Vec × String) :
    Alike (fun next next' : Grid (Option Nat) =>
        next' = next.map (Option.map (first.registry.renumber rename second.registry)))
      (first.place grid entry)
      (second.place (grid.map (Option.map (first.registry.renumber rename second.registry)))
        (entry.1, rename entry.2)) := by
  apply Alike.of_iff
  · constructor
    · rintro ⟨next, placed⟩
      rcases place_eq_ok_iff.mp placed with ⟨inside, state, known, _⟩
      have known' : second.registry.indexOf? (rename entry.2) =
          some (first.registry.renumber rename second.registry state) := by
        rw [renamed.registry.indexOf?_rename, known, Option.map_some]
      exact ⟨_, place_eq_ok_iff.mpr ⟨inside, _, known', rfl⟩⟩
    · rintro ⟨next, placed⟩
      rcases place_eq_ok_iff.mp placed with ⟨inside, number, known, _⟩
      rw [renamed.registry.indexOf?_rename] at known
      rcases Option.map_eq_some_iff.mp known with ⟨state, known', _⟩
      exact ⟨_, place_eq_ok_iff.mpr ⟨inside, state, known', rfl⟩⟩
  · intro next next' placed placed'
    rcases place_eq_ok_iff.mp placed with ⟨inside, state, known, rfl⟩
    rcases place_eq_ok_iff.mp placed' with ⟨_, number, known', rfl⟩
    rw [renamed.registry.indexOf?_rename, known, Option.map_some] at known'
    obtain rfl := Option.some.inj known'
    exact Grid.set_map (Option.map _) grid inside (some state)

private theorem foldlM_place_alike (grid : Grid (Option Nat)) (entries : List (Vec × String)) :
    Alike (fun next next' : Grid (Option Nat) =>
        next' = next.map (Option.map (first.registry.renumber rename second.registry)))
      (entries.foldlM first.place grid)
      ((entries.map fun entry => (entry.1, rename entry.2)).foldlM second.place
        (grid.map (Option.map (first.registry.renumber rename second.registry)))) := by
  refine Alike.foldlM (fun next next' entry same => ?_) entries ?_
  · subst same
    exact renamed.place_alike next entry
  · rfl

/-- Both programs have a first grid, the same up to numbers, or neither has. -/
theorem initialGrid_alike (dimensions : Option (List Scalar))
    (initial : Option (Table Vec String)) :
    Alike (fun grid grid' : Grid Nat =>
        grid' = grid.map (first.registry.renumber rename second.registry))
      (first.initialGrid dimensions initial)
      (second.initialGrid dimensions (initial.map (Table.map rename))) := by
  have entries : ((initial.map (Table.map rename)).map Table.entries).getD [] =
      ((initial.map Table.entries).getD []).map fun entry => (entry.1, rename entry.2) := by
    cases initial <;> rfl
  simp only [initialGrid, renamed.newShape_eq, entries, renamed.registry.default_eq]
  apply (Alike.refl _).bind
  rintro shape _ _ _ rfl
  rw [← Grid.fill_map (Option.map (first.registry.renumber rename second.registry))]
  apply (renamed.foldlM_place_alike _ _).bind
  rintro partly _ _ _ rfl
  rw [Grid.allSome?_map]
  cases partly.allSome? with
  | none => exact .failed
  | some grid => exact .done rfl

theorem countFault?_eq (bytes : Nat) (shape : List Nat) :
    second.countFault? bytes shape second.census = first.countFault? bytes shape first.census := by
  have room : second.boundary.roomFault? bytes shape second.offsets =
      first.boundary.roomFault? bytes shape first.offsets := by
    rw [renamed.boundary, renamed.offsets]
    cases first.boundary <;> cases first.offsets <;> rfl
  rw [countFault?, countFault?, renamed.isEmpty_census, room]

end Program.Renamed

/-! ## Engines -/

/-- The same grids under other numbers. What the scratch grids hold does not matter. -/
structure Buffers.Renamed (rename : String → String) (first second : Program)
    (buffers other : Buffers) : Prop where
  current : other.current =
    buffers.current.map (first.registry.renumber rename second.registry)
  sound : buffers.Sound first
  same : other.scratch.shape = buffers.current.shape

/-- The same picture with other names for the states. Where one picture has no cell, neither
has the other. -/
structure Snapshot.Renamed (rename : String → String) (picture other : Snapshot) : Prop where
  shape : other.grid.shape = picture.grid.shape
  generation : other.generation = picture.generation
  get : ∀ cell, other.get cell = (picture.get cell).map rename

/-- The same engine with other names and numbers for the states. -/
structure Engine.Renamed (rename : String → String) (engine other : Engine) : Prop where
  program : engine.program.Renamed rename other.program
  buffers : Option.Rel (Buffers.Renamed rename engine.program other.program) engine.buffers
    other.buffers
  generation : other.generation = engine.generation

namespace Engine.Renamed

variable {rename : String → String} {engine other : Engine} {memory : Option Nat}
  (renamed : engine.Renamed rename other)

include renamed

private theorem startRoom_eq (bytes : Nat) (dimensions : Option (List Scalar))
    (initial : Option (Table Vec String)) :
    InPlace.startRoom bytes dimensions (initial.map (Table.map rename)) other =
      InPlace.startRoom bytes dimensions initial engine := by
  rw [InPlace.startRoom, InPlace.startRoom, renamed.program.newShape_eq]

/-- Both engines start a grid, or neither does. -/
theorem start_alike (dimensions : Option (List Scalar)) (initial : Option (Table Vec String)) :
    Alike (Engine.Renamed rename) (engine.startWithin memory dimensions initial)
      (other.startWithin memory dimensions (initial.map (Table.map rename))) := by
  have unbounded : Alike (Engine.Renamed rename) (engine.start dimensions initial)
      (other.start dimensions (initial.map (Table.map rename))) := by
    apply ((renamed.program.initialGrid_alike dimensions initial).mapError).bind
    rintro grid _ done _ rfl
    rw [mapError_eq_ok_iff] at done
    rcases Program.initialGrid_eq_ok done with ⟨resolved, shown⟩
    have ranked := Program.length_of_resolveDimensions renamed.program.closed.sized resolved
    exact .done ⟨renamed.program,
      .some ⟨rfl, ⟨ranked, rfl, fun cell inside => (shown cell inside).1⟩, rfl⟩, rfl⟩
  cases memory with
  | none => exact unbounded
  | some bytes =>
      rw [startWithin, startWithin, InPlace.startInMemory_eq, InPlace.startInMemory_eq,
        renamed.startRoom_eq]
      exact (Alike.refl _).bind fun _ _ _ _ _ => unbounded

theorem requireBuffers_alike (task : String) :
    Alike (Buffers.Renamed rename engine.program other.program) (engine.requireBuffers task)
      (other.requireBuffers task) := by
  have related := renamed.buffers
  rw [requireBuffers, requireBuffers]
  generalize engine.buffers = before at related
  generalize other.buffers = after at related
  cases related with
  | none => exact .failed
  | some same => exact .done same

theorem require_alike (task : String) :
    Alike (fun grid grid' : Grid Nat =>
        grid' = grid.map (engine.program.registry.renumber rename other.program.registry) ∧
          grid.Declared engine.program)
      (engine.require task) (other.require task) :=
  (renamed.requireBuffers_alike task).map fun _ _ same => ⟨same.current, same.sound.declared⟩

private theorem stepRoom_alike (bytes : Nat) :
    Alike (fun _ _ => True) (InPlace.stepRoom bytes engine) (InPlace.stepRoom bytes other) := by
  apply (renamed.require_alike "step").bind
  rintro grid _ _ _ ⟨rfl, _⟩
  have room : other.program.countFault? bytes
      (grid.map (engine.program.registry.renumber rename other.program.registry)).shape
      other.program.census = engine.program.countFault? bytes grid.shape engine.program.census :=
    renamed.program.countFault?_eq bytes grid.shape
  rw [room]
  cases engine.program.countFault? bytes grid.shape engine.program.census with
  | none => exact .done trivial
  | some fault => exact .failed

/-- Both engines take a step, or neither does. -/
theorem step_alike : Alike (Engine.Renamed rename) (engine.stepWithin memory)
    (other.stepWithin memory) := by
  have unbounded : Alike (Engine.Renamed rename) engine.step other.step := by
    apply (renamed.requireBuffers_alike "step").bind
    rintro ⟨grid, scratch⟩ ⟨_, scratch'⟩ _ _ ⟨rfl, sound, same⟩
    apply (renamed.program.nextGrid_alike sound.declared sound.ranked sound.same same).mapError.bind
    rintro next _ _ _ ⟨rfl, shape, declared⟩
    have ranked : next.shape.length = engine.program.rank := shape ▸ sound.ranked
    exact .done ⟨renamed.program, .some ⟨rfl, ⟨ranked, shape.symm, declared⟩, shape.symm⟩,
      congrArg (· + 1) renamed.generation⟩
  cases memory with
  | none => exact unbounded
  | some bytes =>
      rw [stepWithin, stepWithin, InPlace.stepInMemory_eq, InPlace.stepInMemory_eq]
      exact (renamed.stepRoom_alike bytes).bind fun _ _ _ _ _ => unbounded

omit renamed in
/-- Both engines take some steps, or neither does. -/
theorem steps_alike (renamed : engine.Renamed rename other) (n : Nat) :
    Alike (Engine.Renamed rename) (engine.stepsWithin memory n)
      (other.stepsWithin memory n) := by
  induction n generalizing engine other with
  | zero =>
      cases memory <;> exact .done renamed
  | succ n ih =>
      rw [stepsWithin_succ, stepsWithin_succ]
      exact renamed.step_alike.bind fun _ _ _ _ next => ih next

/-- Both engines show a picture, or neither does. -/
theorem snapshot_alike : Alike (Snapshot.Renamed rename) engine.snapshot other.snapshot := by
  apply (renamed.require_alike "read the grid").bind
  rintro grid _ _ _ ⟨rfl, declared⟩
  refine .done ⟨rfl, renamed.generation, ?_⟩
  intro cell
  change (checkCoordinate cell grid.extents >>= _) =
    Except.map rename (checkCoordinate cell grid.extents >>= _)
  cases checked : checkCoordinate cell grid.extents with
  | error fault => rfl
  | ok place =>
      rcases checkCoordinate_eq_ok_iff.mp checked with ⟨inside, rfl⟩
      have names := renamed.program.registry.nameOf_renumber (declared cell inside)
      apply congrArg Except.ok
      dsimp only
      rw [Grid.getD_map inside _ 0, names]

/-- Both engines run for some generations, or neither does. -/
theorem run_alike (generations : Int) :
    Alike (fun ran ran' => ran.2.Renamed rename ran'.2) (engine.runWithin memory generations)
      (other.runWithin memory generations) := by
  rw [runWithin_eq, runWithin_eq]
  apply (renamed.steps_alike generations.toNat).bind
  intro next next' _ _ later
  apply later.snapshot_alike.bind
  intro picture picture' _ _ same
  exact .done same

end Engine.Renamed

/-- In unbounded memory a sound engine runs for as long as it is asked to. -/
theorem Engine.Sound.exists_run {engine : Engine} (sound : engine.Sound) {buffers : Buffers}
    (ready : engine.buffers = some buffers) (generations : Int) :
    ∃ ran, engine.run generations = .ok ran := by
  have roomy : engine.Roomy none := nofun
  rcases sound.exists_stepsWithin ready roomy generations.toNat with ⟨next, done, _, continues⟩
  have shown : ∃ picture, next.snapshot = .ok picture := by
    have shape := continues.shape
    cases ready' : next.buffers with
    | none =>
        rw [current, current, ready, ready'] at shape
        exact absurd shape.symm (by simp)
    | some buffers => exact ⟨_, snapshot_eq ready'⟩
  rcases shown with ⟨picture, shown⟩
  have ran : engine.runWithin none generations = .ok (next, picture) := by
    rw [runWithin_eq, done]
    simp only [bind, Except.bind, shown, pure, Except.pure]
  exact ⟨_, ran⟩

/-! ## Programs -/

/-- An engine without a grid is the same engine under other names. -/
theorem Program.Renamed.engine {rename : String → String} {first second : Program}
    (renamed : first.Renamed rename second) :
    Engine.Renamed rename { program := first } { program := second } :=
  ⟨renamed, .none, rfl⟩

section Programs

variable {rename : String → String} {first second : List Declaration} {validated : Validated}

/-- With an accepted program every rearranged program is accepted, and differs by the numbers
of states only. -/
theorem Rearranged.exists_validated (injective : Function.Injective rename)
    (rearranged : Rearranged rename first second) (accepted : validate first = .ok validated) :
    ∃ other, validate second = .ok other ∧ validated.Renumbered rename other := by
  rcases validate_eq_ok_iff_accepted.mp accepted with
    ⟨⟨fits, required, optional⟩, parts, divided, passes⟩
  have single := occurrences_le_one required optional
  rcases rearranged.exists_parts single divided with ⟨parts', divided', same⟩
  rcases same.accepted injective passes with ⟨other, passes', renumbered⟩
  refine ⟨other, validate_eq_ok_iff_accepted.mpr ⟨⟨rearranged.fits fits, ?_, ?_⟩, parts', divided',
    passes'⟩, renumbered⟩
  · intro key member
    rw [rearranged.occurrences_eq, required key member]
  · rw [rearranged.occurrences_eq]
    exact optional

/-- A program that is accepted is accepted in any order and under any names, with the same
rank, sizes and offsets. The two programs start on the same inputs or both fail, and run to
the same pictures or both fail, all up to names, however much memory there is. In
unbounded memory no run fails if every node of a condition has operands. -/
theorem validate_rearranged (injective : Function.Injective rename)
    (rearranged : Rearranged rename first second) (accepted : validate first = .ok validated) :
    ∃ other, validate second = .ok other ∧
      other.rank = validated.rank ∧ other.sizes = validated.sizes ∧
      other.offsets = validated.offsets ∧
      (∀ memory dimensions initial,
        Alike (fun engine engine' : Engine => ∀ generations,
            Alike (fun ran ran' => Snapshot.Renamed rename ran.2 ran'.2)
              (engine.runWithin memory generations) (engine'.runWithin memory generations))
          (Engine.startWithin memory { program := validated.compile } dimensions initial)
          (Engine.startWithin memory { program := other.compile } dimensions
            (initial.map (Table.map rename)))) ∧
      ∀ parts, Parts.ofProgram? first = some parts →
        (∀ rule ∈ parts.rules, rule.condition.Branching 1) →
        ∀ dimensions initial engine,
          Engine.start { program := validated.compile } dimensions initial = .ok engine →
            ∀ generations, ∃ ran, engine.run generations = .ok ran := by
  rcases validate_eq_ok_iff_accepted.mp accepted with ⟨_, parts, divided, passes⟩
  rcases rearranged.exists_validated injective accepted with ⟨other, accepted', renumbered⟩
  have renamed := (renumbered.compile passes.closed).engine
  refine ⟨other, accepted', renumbered.rank, renumbered.sizes, renumbered.offsets, ?_, ?_⟩
  · intro memory dimensions initial
    exact (renamed.start_alike dimensions initial).imp fun _ _ started => started.run_alike
  · intro _ same branching dimensions initial engine started generations
    obtain rfl := Option.some.inj (divided.symm.trans same)
    have sound := (Reachable.started .fresh started).sound (passes.sound branching)
    rcases bind_eq_ok_iff.mp started with ⟨grid, _, known⟩
    obtain rfl := pure_eq_ok_iff.mp known
    exact sound.exists_run rfl generations

end Programs

/-- The program with a ring of two cells, written from the end to the beginning, with `A` and
`B` for each other. -/
def turnedRingDeclarations : List Declaration :=
  [⟨⟨"boundary", none⟩, .boundary .wrap⟩,
    ⟨⟨"rules", none⟩,
      .rules [⟨⟨"B", none⟩, ⟨"A", none⟩, .test ⟨.atLeast, ⟨"B", none⟩, 1⟩⟩]⟩,
    ⟨⟨"states", none⟩,
      .states [⟨⟨"A", none⟩, []⟩, ⟨⟨"B", none⟩, [.defaultMark]⟩]⟩,
    ⟨⟨"neighborhood", none⟩, .neighborhood (.custom [⟨⟨"x", none⟩, .plus, 1⟩])⟩,
    ⟨⟨"environment", none⟩, .environment ⟨1, [(⟨"x", none⟩, 2)]⟩⟩]

theorem rearranged_ring :
    Rearranged (Equiv.swap "A" "B") ringDeclarations turnedRingDeclarations := by
  have a : Equiv.swap "A" "B" "A" = "B" := Equiv.swap_apply_left ..
  have b : Equiv.swap "A" "B" "B" = "A" := Equiv.swap_apply_right ..
  refine ⟨ringDeclarations.reverse, (List.reverse_perm _).symm, ?_⟩
  refine .cons ⟨rfl, .boundary rfl⟩ (.cons ⟨rfl, .rules ?_⟩ (.cons ⟨rfl, .states ?_⟩
    (.cons ⟨rfl, .neighborhood rfl⟩ (.cons ⟨rfl, .environment rfl⟩ .nil))))
  · intro source
    simp only [List.map_cons, List.map_nil, Rule.map, Condition.map, CountTest.map, a, b]
  · exact ⟨_, (List.reverse_perm _).symm, .cons ⟨b.symm, rfl⟩ (.cons ⟨a.symm, rfl⟩ .nil)⟩

theorem validate_ring : ∃ validated engine, validate ringDeclarations = .ok validated ∧
    Engine.start { program := validated.compile } none none = .ok engine := by
  rcases start_ring with ⟨program, engine, loaded, started⟩
  rcases load_eq_ok_iff.mp loaded with ⟨declarations, validated, read, accepted, rfl⟩
  obtain rfl := Except.ok.inj (readProgram_ring.symm.trans read)
  exact ⟨validated, engine, accepted, started⟩

theorem validate_rearranged_ring : ∃ validated other engine engine',
    validate ringDeclarations = .ok validated ∧ validate turnedRingDeclarations = .ok other ∧
      other.offsets = validated.offsets ∧
      Engine.start { program := validated.compile } none none = .ok engine ∧
      Engine.start { program := other.compile } none none = .ok engine' ∧
      ∀ generations, ∃ ran ran', engine.run generations = .ok ran ∧
        engine'.run generations = .ok ran' ∧
          ran.2.Renamed (Equiv.swap "A" "B") ran'.2 := by
  rcases validate_ring with ⟨validated, engine, accepted, started⟩
  obtain ⟨other, accepted', _, _, offsets, starts, runs⟩ :=
    validate_rearranged (Equiv.swap "A" "B").injective rearranged_ring accepted
  rcases (starts none none none).exists_ok started with ⟨engine', started', alike⟩
  refine ⟨validated, other, engine, engine', accepted, accepted', offsets, started, started', ?_⟩
  intro generations
  have branching : ∀ rule ∈ [Rule.mk (⟨"A", some ⟨2, 20⟩⟩ : Name) ⟨"B", some ⟨2, 25⟩⟩
      (.test ⟨.atLeast, ⟨"A", some ⟨2, 43⟩⟩, 1⟩)], rule.condition.Branching 1 := by
    intro rule member
    obtain rfl := List.mem_singleton.mp member
    trivial
  rcases runs _ rfl branching none none engine started generations with ⟨ran, done⟩
  rcases (alike generations).exists_ok done with ⟨ran', done', same⟩
  exact ⟨ran, ran', done, done', same⟩

end Cellular
