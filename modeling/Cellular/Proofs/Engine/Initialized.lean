import Cellular.Proofs.Engine.Prediction
import Cellular.Proofs.Engine.Refused
import Cellular.Proofs.Semantics.Refinement
import Cellular.Proofs.Text.Digits
import Cellular.Proofs.Validation.Shape

/-!
# What can be started

Whether a program has a first grid is decided by what it declares and by what it is given:
extents for its axes, something to start from, cells that exist and states that are declared.
If all of this is there, the grid shows exactly what was asked for, in whatever order it was
said. If not, the start is refused, and the configuration is at fault, as long as the report
shows no number that is too long to be written.

Memory is left aside, or taken to be large enough.
-/

namespace Cellular

/-! ## Declared sizes -/

/-- A name speaks of an axis: it is the name of the axis, or it stands for every axis. -/
def Name.isAbout (axis : Nat) (name : Name) : Bool :=
  name.text == everyAxis || axisNames[axis]? == some name.text

/-- The size that is declared for an axis. Of several sizes the last one counts. -/
def Environment.size? (space : Environment) (axis : Nat) : Option Int :=
  (space.sizes.reverse.find? fun size => size.1.isAbout axis).map Prod.snd

theorem mem_axesNamed_iff {rank axis : Nat} (below : axis < rank) {name : Name} :
    axis ∈ (axesNamed rank name).getD [] ↔ name.isAbout axis = true := by
  rw [axesNamed, Name.isAbout, Bool.or_eq_true, beq_iff_eq, beq_iff_eq, ← axisIndex?_eq_some_iff]
  by_cases every : name.text = everyAxis
  · simp [every, below]
  · cases axisIndex? name.text with
    | none => simp [every]
    | some index =>
        by_cases inside : index < rank
        · simp [every, inside, eq_comm]
        · have apart : index ≠ axis := by omega
          simp [every, inside, apart]

private theorem getElem?_foldl_set {sizes : List (Option Nat)} {axis : Nat}
    (below : axis < sizes.length) (size : Option Nat) (axes : List Nat) :
    (axes.foldl (fun sizes index => sizes.set index size) sizes)[axis]? =
      if axis ∈ axes then some size else sizes[axis]? := by
  induction axes generalizing sizes with
  | nil => rfl
  | cons index axes ih =>
      have below' : axis < (sizes.set index size).length := by rwa [List.length_set]
      rw [List.foldl_cons, ih below', List.getElem?_set]
      by_cases own : index = axis
      · simp [own, below]
      · simp [own, Ne.symm own]

namespace Environment

/-- The sizes of the axes, with one more size that is declared. -/
def withSize (rank : Nat) (sizes : List (Option Nat)) (size : Name × Int) : List (Option Nat) :=
  ((axesNamed rank size.1).getD []).foldl
    (fun sizes index => sizes.set index (some size.2.toNat)) sizes

theorem length_withSize (rank : Nat) (sizes : List (Option Nat)) (size : Name × Int) :
    (withSize rank sizes size).length = sizes.length :=
  length_foldl (fun _ _ => List.length_set) _ sizes

theorem getElem?_withSize {rank axis : Nat} (below : axis < rank) {sizes : List (Option Nat)}
    (long : sizes.length = rank) (size : Name × Int) :
    (withSize rank sizes size)[axis]? =
      if size.1.isAbout axis then some (some size.2.toNat) else sizes[axis]? := by
  rw [withSize, getElem?_foldl_set (long ▸ below)]
  simp only [mem_axesNamed_iff below]

/-- An axis has the last size that speaks of it, or else the size that it had before. -/
theorem getElem?_foldl_withSize {rank axis : Nat} (below : axis < rank)
    {sizes : List (Option Nat)} (long : sizes.length = rank) (declared : List (Name × Int)) :
    (declared.foldl (withSize rank) sizes)[axis]? =
      ((declared.reverse.find? fun size => size.1.isAbout axis).map
        fun size => some size.2.toNat).or sizes[axis]? := by
  induction declared generalizing sizes with
  | nil => rfl
  | cons size declared ih =>
      have long' := (length_withSize rank sizes size).trans long
      rw [List.foldl_cons, ih long', getElem?_withSize below long, List.reverse_cons,
        List.find?_append, Option.map_or, Option.or_assoc]
      apply congrArg (Option.or _)
      cases about : size.1.isAbout axis <;> simp [about]

/-- In an environment that makes sense every axis has the size that is declared for it. -/
theorem getElem?_resolvedSizes {space : Environment} (sensible : space.Sensible) {axis : Nat}
    (below : axis < space.rank) :
    space.resolvedSizes[axis]? = some ((space.size? axis).map Int.toNat) := by
  have clean := List.flatMap_eq_nil_iff.mp (problems_eq_nil_iff.mpr sensible)
  have recorded : space.resolvedSizes =
      space.sizes.foldl (withSize space.rank) (List.replicate space.rank none) := by
    apply List.foldl_ext
    rintro sizes ⟨axis, size⟩ member
    exact if_pos (List.isEmpty_iff.mpr (clean _ member))
  rw [recorded, getElem?_foldl_withSize below List.length_replicate,
    List.getElem?_replicate_of_lt below, size?, Option.map_map]
  cases space.sizes.reverse.find? fun size => size.1.isAbout axis <;> rfl

theorem one_le_of_size? {space : Environment} (sensible : space.Sensible) {axis : Nat} {size : Int}
    (known : space.size? axis = some size) : 1 ≤ size := by
  rcases Option.map_eq_some_iff.mp known with ⟨⟨name, size⟩, found, rfl⟩
  have member := List.mem_reverse.mp (List.mem_of_find?_eq_some found)
  exact (sensible _ member).2

end Environment

/-! ## Extents -/

theorem Scalar.size?_eq_some_iff {extent : Scalar} {n : Nat} :
    extent.size? = some n ↔ extent = .whole n ∧ 1 ≤ n := by
  cases extent with
  | whole m =>
      rw [size?, Option.ite_none_right_eq_some, Option.some.injEq, Scalar.whole.injEq]
      omega
  | _ => simp [size?]

/-- The extents that a new grid is asked to have: those that are given, or else those that
are declared. Either way they are one or more for each axis. -/
structure Parts.Spans (parts : Parts) (dimensions : Option (List Scalar)) (shape : List Nat) :
    Prop where
  given : ∀ extents ∈ dimensions, extents = shape.map fun (n : Nat) => .whole n
  declared : dimensions = none → ∀ (axis n : Nat), shape[axis]? = some n →
    parts.space.size? axis = some (n : Int)
  rank : shape.length = parts.space.rank
  positive : ∀ n ∈ shape, 1 ≤ n

theorem mapM_size?_eq_some_iff {extents : List Scalar} {shape : List Nat} :
    extents.mapM Scalar.size? = some shape ↔
      extents = shape.map (fun (n : Nat) => .whole n) ∧ ∀ n ∈ shape, 1 ≤ n := by
  simp only [mapM_eq_some_iff, Scalar.size?_eq_some_iff]
  induction shape generalizing extents with
  | nil => simp
  | cons n shape ih =>
      rw [List.forall₂_cons_right_iff, List.map_cons, List.forall_mem_cons]
      constructor
      · rintro ⟨extent, rest, ⟨rfl, positive⟩, others, rfl⟩
        rcases ih.mp others with ⟨rfl, further⟩
        exact ⟨rfl, positive, further⟩
      · rintro ⟨rfl, positive, further⟩
        exact ⟨_, _, ⟨rfl, positive⟩, ih.mpr ⟨rfl, further⟩, rfl⟩

private theorem mapM_id_eq_some_iff {sizes : List (Option Nat)} {shape : List Nat} :
    sizes.mapM id = some shape ↔ sizes = shape.map some := by
  rw [mapM_eq_some_iff, ← List.forall₂_eq_eq_eq, List.forall₂_map_right_iff]
  rfl

/-- Every axis has a declared size exactly if the declared extents are complete. -/
theorem Parts.spans_none_iff {parts : Parts} (sensible : parts.space.Sensible)
    {shape : List Nat} :
    parts.Spans none shape ↔ parts.space.resolvedSizes = shape.map some := by
  have long := parts.space.length_resolvedSizes
  constructor
  · intro spans
    apply List.ext_getElem?
    intro axis
    by_cases below : axis < parts.space.rank
    · have found := List.getElem?_eq_getElem (spans.rank.symm ▸ below : axis < shape.length)
      rw [Environment.getElem?_resolvedSizes sensible below, List.getElem?_map, found,
        spans.declared rfl axis _ found]
      rfl
    · have above := Nat.le_of_not_lt below
      rw [List.getElem?_eq_none (long ▸ above), List.getElem?_eq_none]
      rwa [List.length_map, spans.rank]
  · intro same
    have rank : shape.length = parts.space.rank := by rw [← long, same, List.length_map]
    have declared : ∀ (axis n : Nat), shape[axis]? = some n →
        parts.space.size? axis = some (n : Int) := by
      intro axis n found
      have below : axis < parts.space.rank := rank ▸ (List.getElem?_eq_some_iff.mp found).1
      have known := Environment.getElem?_resolvedSizes sensible below
      rw [same, List.getElem?_map, found] at known
      rcases Option.map_eq_some_iff.mp (Option.some.inj known).symm with ⟨size, isSize, rfl⟩
      have positive := Environment.one_le_of_size? sensible isSize
      rw [isSize, Int.toNat_of_nonneg (by omega)]
    constructor
    · exact fun _ given => absurd given (Option.not_mem_none _)
    · exact fun _ => declared
    · exact rank
    · intro n member
      rcases List.mem_iff_getElem?.mp member with ⟨axis, found⟩
      have positive := Environment.one_le_of_size? sensible (declared axis n found)
      omega

/-- An accepted program finds the extents of a new grid if there are some. -/
theorem Parts.Accepted.resolveDimensions_eq_ok_iff {parts : Parts} {validated : Validated}
    (accepted : parts.Accepted validated) {dimensions : Option (List Scalar)}
    {shape : List Nat} :
    validated.compile.resolveDimensions dimensions = .ok shape ↔
      parts.Spans dimensions shape := by
  have sensible := Environment.problems_eq_nil_iff.mp accepted.space
  cases dimensions with
  | none =>
      have sizes : validated.compile.sizes = parts.space.resolvedSizes := accepted.sizes
      rw [Parts.spans_none_iff sensible, ← mapM_id_eq_some_iff, Program.resolveDimensions, sizes]
      cases parts.space.resolvedSizes.mapM id <;> simp
  | some extents =>
      have ranked : validated.compile.rank = parts.space.rank := accepted.rank
      simp only [Program.resolveDimensions, ranked]
      constructor
      · intro done
        split at done
        · cases done
        · rename_i same
          split at done
          · rename_i known
            obtain rfl := Except.ok.inj done
            rcases mapM_size?_eq_some_iff.mp known with ⟨rfl, positive⟩
            constructor
            · exact fun _ given => (Option.some.inj given).symm
            · exact fun missing => absurd missing (Option.some_ne_none _)
            · rw [← Decidable.not_not.mp same, List.length_map]
            · exact positive
          · cases done
      · intro spans
        have given := spans.given extents rfl
        have long : extents.length = parts.space.rank := by
          rw [given, List.length_map, spans.rank]
        rw [if_neg (not_not_intro long), mapM_size?_eq_some_iff.mpr ⟨given, spans.positive⟩]

/-! ## What has to be there -/

/-- A coordinate lies in a grid if it has a component for each axis, and each of them lies on
its axis. -/
def Vec.LiesIn (cell : Vec) (shape : List Nat) : Prop :=
  List.Forall₂ (fun (c : Int) (n : Nat) => 0 ≤ c ∧ c < n) cell shape

theorem isCell_iff_liesIn {cell : Vec} {shape : List Nat} :
    isCell cell shape = true ↔ cell.LiesIn shape := by
  rw [Vec.LiesIn]
  induction shape generalizing cell with
  | nil => cases cell <;> simp [isCell, inBounds]
  | cons n shape ih =>
      cases cell with
      | nil => simp [isCell]
      | cons c cell =>
          rw [isCell_cons, Bool.and_eq_true, Bool.and_eq_true, decide_eq_true_eq,
            decide_eq_true_eq, ih, List.forall₂_cons]

/-- All that it takes to start a grid of some extents. -/
structure Parts.Startable (parts : Parts) (dimensions : Option (List Scalar))
    (initial : Option (Table Vec String)) (shape : List Nat) : Prop where
  spans : parts.Spans dimensions shape
  start : parts.default?.isSome ∨ initial.isSome
  inside : ∀ table ∈ initial, ∀ entry ∈ table.entries, Vec.LiesIn entry.1 shape
  declared : ∀ table ∈ initial, ∀ entry ∈ table.entries,
    entry.2 ∈ parts.entries.map (·.name.text)
  /-- Without a default state no cell is left out. -/
  complete : parts.default? = none → ∀ cell : Vec, cell.LiesIn shape →
    ∃ table ∈ initial, (table.get? cell).isSome

namespace Parts.Accepted

variable {parts : Parts} {validated : Validated} (accepted : parts.Accepted validated)
  {dimensions : Option (List Scalar)} {initial : Option (Table Vec String)}

include accepted

theorem declares_iff {name : String} :
    validated.registry.declares name = true ↔ name ∈ parts.entries.map (·.name.text) := by
  rw [Registry.declares_iff, ← Registry.mem_names_iff, accepted.registry,
    names_checkStates accepted.entries]

theorem isSome_default?_iff :
    validated.registry.default?.isSome = true ↔ parts.default?.isSome = true := by
  rw [← accepted.default?_eq, Option.isSome_map]

/-- If all that it takes is there, every cell is given a state. -/
theorem exists_initialState {shape : List Nat}
    (startable : parts.Startable dimensions initial shape) {cell : Vec}
    (inside : cell.LiesIn shape) :
    ∃ state, validated.compile.initialState initial cell = some state := by
  rw [Program.initialState]
  cases mentioned : initial.bind (·.get? cell) with
  | some name =>
      rcases Option.bind_eq_some_iff.mp mentioned with ⟨table, given, found⟩
      have member := Table.get?_eq_some_iff.mp found
      have declared := startable.declared table given _ member
      exact Registry.declares_iff.mp (accepted.declares_iff.mpr declared)
  | none =>
      cases default : validated.registry.default? with
      | some state => exact ⟨state.index.toNat, congrArg (Option.map _) default⟩
      | none =>
          have missing : parts.default? = none := by
            rw [← accepted.default?_eq, default, Option.map_none]
          rcases startable.complete missing cell inside with ⟨table, given, known⟩
          obtain rfl := Option.mem_def.mp given
          rw [Option.bind_some] at mentioned
          rw [mentioned] at known
          cases known

/-- There is a first grid exactly if all that it takes is there. -/
theorem exists_initialGrid_iff {shape : List Nat} :
    (∃ grid, validated.compile.initialGrid dimensions initial = .ok grid ∧ grid.shape = shape) ↔
      parts.Startable dimensions initial shape := by
  constructor
  · rintro ⟨grid, done, rfl⟩
    rcases Program.initialGrid_eq_ok_iff.mp done with ⟨shaped, mentioned, given⟩
    rcases Program.newShape_eq_ok_iff.mp shaped with ⟨resolved, start⟩
    have each : ∀ table ∈ initial, ∀ entry ∈ table.entries, isCell entry.1 grid.shape ∧
        validated.registry.declares entry.2 := by
      rintro table rfl
      exact mentioned
    constructor
    · exact accepted.resolveDimensions_eq_ok_iff.mp resolved
    · exact start.imp_left accepted.isSome_default?_iff.mp
    · intro table own entry member
      exact isCell_iff_liesIn.mp (each table own entry member).1
    · intro table own entry member
      exact accepted.declares_iff.mp (each table own entry member).2
    · intro missing cell inside
      have state := given cell (isCell_iff_liesIn.mpr inside)
      rw [← accepted.default?_eq, Option.map_eq_none_iff] at missing
      rw [Program.initialState] at state
      split at state
      · rename_i name found
        rcases Option.bind_eq_some_iff.mp found with ⟨table, own, known⟩
        exact ⟨table, own, Option.isSome_iff_exists.mpr ⟨name, known⟩⟩
      · rcases Option.map_eq_some_iff.mp state with ⟨default, known, _⟩
        exact absurd (missing.symm.trans known) (Option.some_ne_none _).symm
  · intro startable
    have shaped : validated.compile.newShape dimensions initial = .ok shape :=
      Program.newShape_eq_ok_iff.mpr
        ⟨accepted.resolveDimensions_eq_ok_iff.mpr startable.spans,
          startable.start.imp_left accepted.isSome_default?_iff.mpr⟩
    have mentioned : ∀ entry ∈ (initial.map Table.entries).getD [], isCell entry.1 shape ∧
        validated.registry.declares entry.2 := by
      intro entry member
      cases initial with
      | none => exact absurd member List.not_mem_nil
      | some table =>
          exact ⟨isCell_iff_liesIn.mpr (startable.inside table rfl entry member),
            accepted.declares_iff.mpr (startable.declared table rfl entry member)⟩
    have given : ∀ cell, isCell cell shape → validated.compile.initialState initial cell =
        some ((Grid.ofFn shape fun cell =>
          (validated.compile.initialState initial cell).getD 0).getD cell 0) := by
      intro cell inside
      rcases accepted.exists_initialState startable (isCell_iff_liesIn.mp inside) with
        ⟨state, known⟩
      rw [Grid.getD_ofFn inside, known, Option.getD_some]
    use Grid.ofFn shape fun cell => (validated.compile.initialState initial cell).getD 0
    exact ⟨Program.initialGrid_eq_ok_iff.mpr ⟨shaped, mentioned, given⟩, rfl⟩

end Parts.Accepted

/-- What a start is asked for has no numbers that are too long to be written: neither among
the extents and coordinates that are given, nor those that count extents or cells. -/
structure Parts.Legible (parts : Parts) (dimensions : Option (List Scalar))
    (initial : Option (Table Vec String)) : Prop where
  extent : ∀ extents ∈ dimensions, ∀ n : Int, .whole n ∈ extents → isWritable n
  extents : ∀ extents ∈ dimensions, isWritable extents.length
  coordinate : ∀ table ∈ initial, ∀ entry ∈ table.entries, ∀ n ∈ entry.1, isWritable n
  cells : ∀ shape, parts.Spans dimensions shape → isWritable (cellCount shape)

theorem le_cellCount {shape : List Nat} (positive : ∀ n ∈ shape, 1 ≤ n) :
    1 ≤ cellCount shape ∧ ∀ n ∈ shape, n ≤ cellCount shape := by
  induction shape with
  | nil => exact ⟨Nat.le_refl 1, nofun⟩
  | cons n shape ih =>
      rcases List.forall_mem_cons.mp positive with ⟨first, others⟩
      rcases ih others with ⟨some, each⟩
      have all : cellCount (n :: shape) = n * cellCount shape := rfl
      rw [all, List.forall_mem_cons]
      refine ⟨Nat.mul_pos first some, Nat.le_mul_of_pos_right n some, fun m member => ?_⟩
      exact Nat.le_trans (each m member) (Nat.le_mul_of_pos_left _ first)

/-- The order of an initial assignment does not matter. -/
theorem Program.initialGrid_perm {program : Program} {dimensions : Option (List Scalar)}
    {table other : Table Vec String} (same : other.entries.Perm table.entries) {grid : Grid Nat}
    (done : program.initialGrid dimensions (some table) = .ok grid) :
    program.initialGrid dimensions (some other) = .ok grid := by
  rcases initialGrid_eq_ok_iff.mp done with ⟨shaped, mentioned, given⟩
  have found := Table.get?_eq_of_perm same
  have given' : ∀ cell, isCell cell grid.shape →
      program.initialState (some other) cell = some (grid.getD cell 0) := by
    intro cell inside
    have state := given cell inside
    rw [initialState, Option.bind_some] at state ⊢
    rw [found, state]
  exact initialGrid_eq_ok_iff.mpr ⟨newShape_eq_ok_iff.mpr (newShape_eq_ok_iff.mp shaped),
    fun entry member => mentioned entry (same.mem_iff.mp member), given'⟩

/-! ## Starting -/

theorem Engine.start_perm {engine started : Engine} {dimensions : Option (List Scalar)}
    {table other : Table Vec String} (same : other.entries.Perm table.entries)
    (done : engine.start dimensions (some table) = .ok started) :
    engine.start dimensions (some other) = .ok started := by
  rcases start_eq_ok_iff.mp done with ⟨grid, first, rfl⟩
  exact start_eq_ok_iff.mpr ⟨grid, Program.initialGrid_perm same first, rfl⟩

namespace Loaded

variable {source : String} {program : Program} {declarations : List Declaration} {parts : Parts}
  {validated : Validated}

/-- There are at most three axes. -/
theorem rank_le (loaded : Loaded source program declarations parts validated) :
    parts.space.rank ≤ 3 := by
  have spaced := (Parts.ofProgram?_eq_some_iff.mp loaded.divided).1
  have readable : parts.space.Readable := loaded.readable_value spaced
  have few := readable.rank
  omega

/-- If everything that is asked for can be written, so can every report of it. -/
theorem isWritable_of_reports (loaded : Loaded source program declarations parts validated)
    {dimensions : Option (List Scalar)} {initial : Option (Table Vec String)}
    (legible : parts.Legible dimensions initial) {n : Int}
    (reports : validated.compile.Reports dimensions initial n) : isWritable n := by
  have axes : ∀ rank : Nat, rank = parts.space.rank → isWritable rank = true := by
    rintro _ rfl
    have few : ((parts.space.rank : Nat) : Int).natAbs ≤ (3 : Int).natAbs := loaded.rank_le
    exact isWritable_of_natAbs_le few (by decide)
  have within : ∀ (shape : List Nat) (count : Nat),
      validated.compile.resolveDimensions dimensions = .ok shape → count ≤ cellCount shape →
        isWritable count = true := by
    intro shape count resolved among
    have spans := loaded.accepted.resolveDimensions_eq_ok_iff.mp resolved
    have below : (count : Int).natAbs ≤ (cellCount shape : Int).natAbs := among
    exact isWritable_of_natAbs_le below (legible.cells shape spans)
  cases reports with
  | extent given member => exact legible.extent _ given n member
  | extents given => exact legible.extents _ given
  | rank => exact axes _ loaded.accepted.rank
  | coordinate given member component => exact legible.coordinate _ given _ member n component
  | axis resolved member =>
      have spans := loaded.accepted.resolveDimensions_eq_ok_iff.mp resolved
      exact within _ _ resolved ((le_cellCount spans.positive).2 _ member)
  | axes resolved =>
      exact axes _ (loaded.accepted.resolveDimensions_eq_ok_iff.mp resolved).rank
  | cells resolved among => exact within _ _ resolved among

variable (loaded : Loaded source program declarations parts validated)
  {engine : Engine} (same : engine.program = program) {dimensions : Option (List Scalar)}
  {initial : Option (Table Vec String)}

include loaded same

/-- If all that it takes is there, every cell shows the name that it is given at first. -/
theorem exists_started {shape : List Nat} (startable : parts.Startable dimensions initial shape) :
    ∃ started picture, engine.start dimensions initial = .ok started ∧
      started.generation = 0 ∧ started.snapshot = .ok picture ∧ picture.grid.shape = shape ∧
      ∀ cell : Vec, cell.LiesIn shape →
        ∃ name, parts.first? initial cell = some name ∧ picture.get cell = .ok name := by
  rcases loaded.accepted.exists_initialGrid_iff.mpr startable with ⟨grid, done, rfl⟩
  rw [← loaded.compiled, ← same] at done
  have started := Engine.start_eq_ok_iff.mpr ⟨grid, done, rfl⟩
  have first : ∀ cell, isCell cell grid.shape →
      parts.first? initial cell = some (engine.program.registry.nameOf (grid.getD cell 0)) := by
    intro cell inside
    rw [Parts.first?, ← loaded.accepted.default?_eq, ← loaded.registry_eq, ← same]
    exact ((Program.initialGrid_eq_ok done).2 cell inside).2
  have shown : ∀ cell, isCell cell grid.shape →
      Snapshot.get ⟨grid, engine.program.registry, 0⟩ cell =
        .ok (engine.program.registry.nameOf (grid.getD cell 0)) := by
    intro cell inside
    exact Snapshot.get_eq_ok_of_isCell inside rfl
  exact ⟨_, _, started, rfl, rfl, rfl, fun cell lies =>
    ⟨_, first cell (isCell_iff_liesIn.mpr lies), shown cell (isCell_iff_liesIn.mpr lies)⟩⟩

/-- If something is missing, the start is refused, and the configuration is at fault if every
number can be written. -/
theorem exists_fault (missing : ∀ shape, ¬parts.Startable dimensions initial shape) :
    ∃ fault : ConfigurationFault,
      engine.start dimensions initial = .error (.refused fault.refusal) ∧
        (parts.Legible dimensions initial → fault.refusal = .configuration fault) := by
  cases done : engine.program.initialGrid dimensions initial with
  | error refusal =>
      have failed : engine.start dimensions initial = .error (.refused refusal) := by
        rw [Engine.start, done]
        rfl
      rw [same, loaded.compiled] at done
      rcases Program.exists_fault_of_initialGrid done with ⟨fault, rfl, shown⟩
      refine ⟨fault, failed, fun legible => ?_⟩
      apply ConfigurationFault.refusal_of_writable
      exact fun n member => loaded.isWritable_of_reports legible (shown n member)
  | ok grid =>
      rw [same, loaded.compiled] at done
      exact absurd (loaded.accepted.exists_initialGrid_iff.mp ⟨grid, done, rfl⟩) (missing _)

end Loaded

/-- What happens when a grid is started. -/
theorem start_iff_startable {source : String} {program : Program}
    (loaded : load source = .ok program) :
    ∃ declarations parts, readProgram source = .ok declarations ∧
      Parts.ofProgram? declarations = some parts ∧
      ∀ (engine : Engine) (dimensions : Option (List Scalar)) (initial : Option (Table Vec String)),
        engine.program = program →
        -- if all that it takes is there, every cell shows the name that it is given at first
        (∀ shape, parts.Startable dimensions initial shape →
          ∃ started picture, engine.start dimensions initial = .ok started ∧
            started.generation = 0 ∧ started.snapshot = .ok picture ∧ picture.grid.shape = shape ∧
            ∀ cell : Vec, cell.LiesIn shape →
              ∃ name, parts.first? initial cell = some name ∧ picture.get cell = .ok name) ∧
        -- if something is missing, the configuration is at fault, or it cannot be reported
        ((∀ shape, ¬parts.Startable dimensions initial shape) →
          ∃ fault : ConfigurationFault,
            engine.start dimensions initial = .error (.refused fault.refusal) ∧
              (parts.Legible dimensions initial → fault.refusal = .configuration fault)) ∧
        -- the order of an initial assignment does not matter
        (∀ table other : Table Vec String, other.entries.Perm table.entries →
          ∀ started, engine.start dimensions (some table) = .ok started →
            engine.start dimensions (some other) = .ok started) ∧
        -- neither does memory, if there is enough
        ∀ memory, (∀ shape, program.newShape dimensions initial = .ok shape →
            storageFault? memory cellBytes shape = none) →
          engine.startInMemory memory dimensions initial = engine.start dimensions initial := by
  rcases loaded_of_load loaded with ⟨declarations, parts, validated, origin⟩
  use declarations, parts, origin.read, origin.divided
  intro engine dimensions initial same
  exact ⟨fun _ startable => origin.exists_started same startable, origin.exists_fault same,
    fun _ _ perm _ done => Engine.start_perm perm done,
    fun memory room => Engine.startInMemory_of_room (same ▸ room)⟩

/-- The parts of the program with a ring of two cells. -/
def ringParts : Parts where
  space := ⟨1, [(⟨"x", some ⟨1, 23⟩⟩, 2)]⟩
  shape := .custom [⟨⟨"x", some ⟨1, 48⟩⟩, .plus, 1⟩]
  edge := .wrap
  entries := [⟨⟨"A", some ⟨1, 68⟩⟩, [.defaultMark]⟩, ⟨⟨"B", some ⟨1, 81⟩⟩, []⟩]
  rules := [⟨⟨"A", some ⟨2, 20⟩⟩, ⟨"B", some ⟨2, 25⟩⟩, .test ⟨.atLeast, ⟨"A", some ⟨2, 43⟩⟩, 1⟩⟩]

theorem ofProgram?_ring : Parts.ofProgram? ringDeclarations = some ringParts := by
  rfl

theorem spans_ring : ringParts.Spans none [2] := by
  constructor
  · exact fun _ given => absurd given (Option.not_mem_none _)
  · intro _ axis n found
    cases axis with
    | zero =>
        obtain rfl := Option.some.inj found
        decide
    | succ axis => cases found
  · rfl
  · decide

/-- States for both cells of the ring. -/
def ringStates : Table Vec String :=
  ⟨[([1], "B"), ([0], "A")], by decide⟩

theorem startable_ring : ringParts.Startable none (some ringStates) [2] := by
  constructor
  · exact spans_ring
  · exact Or.inr rfl
  · intro table given entry member
    obtain rfl := Option.some.inj given
    rcases List.mem_pair.mp member with rfl | rfl <;> exact isCell_iff_liesIn.mp (by decide)
  · intro table given entry member
    obtain rfl := Option.some.inj given
    rcases List.mem_pair.mp member with rfl | rfl <;> decide
  · exact fun missing => absurd missing (Option.some_ne_none _)

theorem start_iff_startable_ring : ∃ program, load ringSource = .ok program ∧
    ringParts.Startable none (some ringStates) [2] ∧
    ∃ started picture, Engine.start { program } none (some ringStates) = .ok started ∧
      started.generation = 0 ∧ started.snapshot = .ok picture ∧
      (∀ cell : Vec, cell.LiesIn [2] → ∃ name,
        ringParts.first? (some ringStates) cell = some name ∧ picture.get cell = .ok name) ∧
      -- in the other order
      Engine.start { program } none (some ⟨[([0], "A"), ([1], "B")], by decide⟩) = .ok started ∧
      -- in eight bytes
      Engine.startInMemory 8 { program } none (some ringStates) = .ok started ∧
      -- a truth value is no extent
      (∀ shape, ¬ringParts.Startable (some [.truth true]) none shape) ∧
      ringParts.Legible (some [.truth true]) none ∧
      ∃ fault, Engine.start { program } (some [.truth true]) none =
        .error (.refused (.configuration fault)) := by
  rcases start_ring with ⟨program, _, loaded, _⟩
  rcases loaded_of_load loaded with ⟨_, _, _, origin⟩
  obtain rfl := Except.ok.inj (readProgram_ring.symm.trans origin.read)
  obtain rfl := Option.some.inj (ofProgram?_ring.symm.trans origin.divided)
  obtain ⟨_, _, read, divided, outcome⟩ := start_iff_startable loaded
  obtain rfl := Except.ok.inj (readProgram_ring.symm.trans read)
  obtain rfl := Option.some.inj (ofProgram?_ring.symm.trans divided)
  obtain ⟨done, _, order, memory⟩ := outcome { program } none (some ringStates) rfl
  obtain ⟨started, picture, starts, generation, snapshot, _, shown⟩ := done [2] startable_ring
  have room : ∀ shape, program.newShape none (some ringStates) = .ok shape →
      storageFault? 8 cellBytes shape = none := by
    intro shape shaped
    have resolved := (Program.newShape_eq_ok_iff.mp shaped).1
    rw [origin.compiled, origin.accepted.resolveDimensions_eq_ok_iff.mpr spans_ring] at resolved
    obtain rfl := Except.ok.inj resolved
    decide
  have unspanned : ∀ shape, ¬ringParts.Spans (some [.truth true]) shape := by
    intro shape spans
    have given := spans.given _ rfl
    cases shape with
    | nil => cases given
    | cons n shape => cases given
  have missing : ∀ shape, ¬ringParts.Startable (some [.truth true]) none shape :=
    fun shape startable => unspanned shape startable.spans
  have legible : ringParts.Legible (some [.truth true]) none := by
    constructor
    · intro extents given n member
      obtain rfl := Option.some.inj given
      exact absurd (List.mem_singleton.mp member) nofun
    · intro extents given
      obtain rfl := Option.some.inj given
      decide
    · exact fun _ given => absurd given (Option.not_mem_none _)
    · exact fun shape spans => absurd spans (unspanned shape)
  obtain ⟨fault, refused, reported⟩ :=
    (outcome { program } (some [.truth true]) none rfl).2.1 missing
  exact ⟨program, loaded, startable_ring, started, picture, starts, generation, snapshot, shown,
    order ringStates _ (List.Perm.swap _ _ []) started starts, (memory 8 room).trans starts,
    missing, legible, fault, reported legible ▸ refused⟩

/-- Extents that are refused are not reported if one of them is too long to be written. -/
theorem Engine.start_of_long_extent {engine : Engine} {initial : Option (Table Vec String)}
    {extents : List Scalar} (ranked : extents.length = engine.program.rank)
    (unsized : extents.mapM Scalar.size? = none) {n : Int} (member : .whole n ∈ extents)
    (long : isWritable n = false) :
    engine.start (some extents) initial = .error (.refused .unwritable) := by
  have occurs : n ∈ (ConfigurationFault.notPositive extents).numbers :=
    List.mem_filterMap.mpr ⟨.whole n, member, rfl⟩
  have unresolved : engine.program.resolveDimensions (some extents) = .error .unwritable := by
    simp only [Program.resolveDimensions, unsized]
    rw [if_neg (not_not_intro ranked), ConfigurationFault.refusal_of_unwritable occurs long]
  rw [start, Program.initialGrid, Program.newShape, unresolved]
  rfl

/-- The ring is not started with a negative extent, and if it is too long to be shown, the
refusal does not say that the configuration is at fault. -/
theorem start_of_negative_extent_ring {large : Nat} (long : isWritable large = false) :
    ∃ program, load ringSource = .ok program ∧
      (∀ shape, ¬ringParts.Startable (some [.whole (-large)]) none shape) ∧
      ∀ fault, Engine.start { program } (some [.whole (-large)]) none ≠
        .error (.refused (.configuration fault)) := by
  rcases load_ring with ⟨program, _, loaded, ⟨line, _, _⟩, _⟩
  have unsized : [Scalar.whole (-large)].mapM Scalar.size? = none := by
    have none : Scalar.size? (.whole (-large)) = none := if_neg (by omega)
    rw [List.mapM_cons, none]
    rfl
  refine ⟨program, loaded, ?_, ?_⟩
  · intro shape startable
    have spans := startable.spans
    have sized := mapM_size?_eq_some_iff.mpr ⟨spans.given _ rfl, spans.positive⟩
    exact absurd (unsized.symm.trans sized) nofun
  · intro fault refused
    have silent : Engine.start { program } (some [.whole (-large)]) none =
        .error (.refused .unwritable) :=
      Engine.start_of_long_extent line.symm unsized (List.mem_singleton_self _)
        ((isWritable_neg large).trans long)
    exact absurd (silent.symm.trans refused) nofun

/-- So not every start that is refused says that the configuration is at fault. -/
theorem start_of_power_ring : ∃ program, load ringSource = .ok program ∧
    (∀ shape, ¬ringParts.Startable (some [.whole (-(10 ^ greatestDigits : Nat))]) none shape) ∧
    ∀ fault, Engine.start { program } (some [.whole (-(10 ^ greatestDigits : Nat))]) none ≠
      .error (.refused (.configuration fault)) :=
  start_of_negative_extent_ring (isWritable_pow_eq_false (Nat.le_refl greatestDigits))

end Cellular
