import Mathlib.Data.List.Forall2

/-!
# Outcomes of stages

A sequence of stages succeeds exactly if every stage does. These laws take a successful
sequence apart, stage by stage, or compare two sequences.
-/

namespace Cellular

variable {ε ε' α β : Type}

@[simp]
theorem ok_bind (a : α) (next : α → Except ε β) : (Except.ok a >>= next) = next a :=
  rfl

@[simp]
theorem pure_eq_ok (a : α) : (pure a : Except ε α) = .ok a :=
  rfl

theorem bind_eq_ok_iff {stage : Except ε α} {next : α → Except ε β} {b : β} :
    (stage >>= next) = .ok b ↔ ∃ a, stage = .ok a ∧ next a = .ok b := by
  cases stage with
  | error e => simp [bind, Except.bind]
  | ok a => simp [bind, Except.bind]

theorem bind_eq_error_iff {stage : Except ε α} {next : α → Except ε β} {e : ε} :
    (stage >>= next) = .error e ↔ stage = .error e ∨ ∃ a, stage = .ok a ∧ next a = .error e := by
  cases stage with
  | error e => simp [bind, Except.bind]
  | ok a => simp [bind, Except.bind]

theorem map_eq_ok_iff {stage : Except ε α} {f : α → β} {b : β} :
    stage.map f = .ok b ↔ ∃ a, stage = .ok a ∧ f a = b := by
  cases stage with
  | error e => simp [Except.map]
  | ok a => simp [Except.map]

theorem pure_eq_ok_iff {a b : α} : (pure a : Except ε α) = .ok b ↔ a = b := by
  simp [pure, Except.pure]

theorem mapError_eq_ok_iff {stage : Except ε α} {f : ε → ε'} {a : α} :
    stage.mapError f = .ok a ↔ stage = .ok a := by
  cases stage with
  | error e => simp [Except.mapError]
  | ok b => simp [Except.mapError]

theorem eq_ok_of_toOption {stage : Except ε α} {a : α} (done : stage.toOption = some a) :
    stage = .ok a := by
  cases stage with
  | ok b => exact congrArg Except.ok (Option.some.inj done)
  | error e => exact absurd done nofun

theorem mapM_eq_ok_iff {stage : α → Except ε β} {items : List α} {results : List β} :
    items.mapM stage = .ok results ↔
      List.Forall₂ (fun item result => stage item = .ok result) items results := by
  induction items generalizing results with
  | nil =>
      rw [List.mapM_nil, pure_eq_ok_iff, List.forall₂_nil_left_iff]
      exact eq_comm
  | cons item items ih =>
      rw [List.mapM_cons, bind_eq_ok_iff, List.forall₂_cons_left_iff]
      simp only [bind_eq_ok_iff, pure_eq_ok_iff, ih]
      constructor
      · rintro ⟨first, done, rest, others, rfl⟩
        exact ⟨first, rest, done, others, rfl⟩
      · rintro ⟨first, rest, done, others, rfl⟩
        exact ⟨first, done, rest, others, rfl⟩

/-- If the result of every item is known, so are all results. -/
theorem mapM_eq_ok_map {stage : α → Except ε β} {result : α → β} {items : List α}
    (each : ∀ a ∈ items, stage a = .ok (result a)) : items.mapM stage = .ok (items.map result) := by
  rw [mapM_eq_ok_iff, List.forall₂_map_right_iff, List.forall₂_same]
  exact each

/-- If every item is related to something, all of them are. -/
theorem exists_forall₂ {R : α → β → Prop} {items : List α}
    (each : ∀ item ∈ items, ∃ result, R item result) : ∃ results, List.Forall₂ R items results := by
  induction items with
  | nil => exact ⟨[], .nil⟩
  | cons item items ih =>
      rcases List.forall_mem_cons.mp each with ⟨⟨first, own⟩, others⟩
      rcases ih others with ⟨rest, further⟩
      exact ⟨first :: rest, .cons own further⟩

/-- If every item has a result, all of them have. -/
theorem exists_mapM_eq_ok {stage : α → Except ε β} {items : List α}
    (each : ∀ item ∈ items, ∃ result, stage item = .ok result) :
    ∃ results, items.mapM stage = .ok results := by
  rcases exists_forall₂ each with ⟨results, done⟩
  exact ⟨results, mapM_eq_ok_iff.mpr done⟩

theorem mapM_eq_some_iff {f : α → Option β} {items : List α} {results : List β} :
    items.mapM f = some results ↔
      List.Forall₂ (fun item result => f item = some result) items results := by
  induction items generalizing results with
  | nil =>
      rw [List.mapM_nil, List.forall₂_nil_left_iff, eq_comm]
      exact Option.some_inj
  | cons item items ih =>
      rw [List.mapM_cons, List.forall₂_cons_left_iff]
      simp only [Option.bind_eq_bind, Option.bind_eq_some_iff, Option.pure_def, Option.some.injEq,
        ih]
      constructor
      · rintro ⟨first, done, rest, others, rfl⟩
        exact ⟨first, rest, done, others, rfl⟩
      · rintro ⟨first, rest, done, others, rfl⟩
        exact ⟨first, done, rest, others, rfl⟩

theorem length_of_mapM_eq_some {f : α → Option β} {items : List α} {results : List β}
    (done : items.mapM f = some results) : results.length = items.length :=
  (mapM_eq_some_iff.mp done).length_eq.symm

/-- Changes that keep the length of a list keep it one after the other. -/
theorem length_foldl {change : List α → β → List α}
    (keeps : ∀ items b, (change items b).length = items.length) (steps : List β)
    (items : List α) : (steps.foldl change items).length = items.length := by
  induction steps generalizing items with
  | nil => rfl
  | cons b steps ih => rw [List.foldl_cons, ih, keeps]

/-- Every result is the result of an item. -/
theorem exists_of_mem_right {R : α → β → Prop} {items : List α} {results : List β}
    (related : List.Forall₂ R items results) {b : β} (member : b ∈ results) :
    ∃ a ∈ items, R a b := by
  induction related with
  | nil => exact absurd member List.not_mem_nil
  | cons first _ ih =>
      rcases List.mem_cons.mp member with rfl | member
      · exact ⟨_, List.mem_cons_self, first⟩
      · rcases ih member with ⟨a, inItems, done⟩
        exact ⟨a, List.mem_cons_of_mem _ inItems, done⟩

/-- Every item has a result. -/
theorem exists_of_mem_left {R : α → β → Prop} {items : List α} {results : List β}
    (related : List.Forall₂ R items results) {a : α} (member : a ∈ items) :
    ∃ b ∈ results, R a b := by
  have turned : List.Forall₂ (flip R) results items := related.flip
  exact exists_of_mem_right turned member

/-! ## What goes wrong -/

/-- What goes wrong in a stage, if anything does. -/
def fault? : Except ε α → Option ε
  | .ok _ => none
  | .error e => some e

theorem fault?_eq_some_iff {stage : Except ε α} {e : ε} :
    fault? stage = some e ↔ stage = .error e := by
  cases stage <;> simp [fault?]

theorem fault?_eq_none_iff {stage : Except ε α} :
    fault? stage = none ↔ ∃ a, stage = .ok a := by
  cases stage <;> simp [fault?]

theorem fault?_map (stage : Except ε α) (f : α → β) : fault? (stage.map f) = fault? stage := by
  cases stage <;> rfl

/-- If what goes wrong later does not depend on the result, it only counts if nothing went
wrong before. -/
theorem fault?_bind {stage : Except ε α} {next : α → Except ε β} {later : Option ε}
    (each : ∀ a, fault? (next a) = later) :
    fault? (stage >>= next) = (fault? stage).or later := by
  cases stage with
  | ok a => exact each a
  | error e => rfl

/-! ## Stages that end alike -/

/-- Two stages either both fail, or both succeed with results that are related. -/
inductive Alike (R : α → β → Prop) : Except ε α → Except ε' β → Prop
  | failed {e : ε} {e' : ε'} : Alike R (.error e) (.error e')
  | done {a : α} {b : β} (related : R a b) : Alike R (.ok a) (.ok b)

namespace Alike

variable {φ φ' γ δ : Type} {R : α → β → Prop} {S : γ → δ → Prop}
  {first : Except ε α} {second : Except ε' β}

theorem of_iff (both : (∃ a, first = .ok a) ↔ ∃ b, second = .ok b)
    (related : ∀ a b, first = .ok a → second = .ok b → R a b) : Alike R first second := by
  cases first with
  | ok a =>
      rcases both.mp ⟨a, rfl⟩ with ⟨b, rfl⟩
      exact .done (related a b rfl rfl)
  | error e =>
      cases second with
      | ok b =>
          rcases both.mpr ⟨b, rfl⟩ with ⟨a, done⟩
          exact absurd done nofun
      | error e' => exact .failed

theorem refl (stage : Except ε α) : Alike Eq stage stage := by
  cases stage with
  | ok a => exact .done rfl
  | error e => exact .failed

theorem bind (alike : Alike R first second) {next : α → Except ε γ} {next' : β → Except ε' δ}
    (each : ∀ a b, first = .ok a → second = .ok b → R a b → Alike S (next a) (next' b)) :
    Alike S (first >>= next) (second >>= next') := by
  cases alike with
  | failed => exact .failed
  | done related => exact each _ _ rfl rfl related

theorem imp {T : α → β → Prop} (alike : Alike R first second) (weaker : ∀ a b, R a b → T a b) :
    Alike T first second := by
  cases alike with
  | failed => exact .failed
  | done related => exact .done (weaker _ _ related)

theorem map (alike : Alike R first second) {f : α → γ} {g : β → δ}
    (each : ∀ a b, R a b → S (f a) (g b)) : Alike S (first.map f) (second.map g) := by
  cases alike with
  | failed => exact .failed
  | done related => exact .done (each _ _ related)

theorem mapError (alike : Alike R first second) {f : ε → φ} {g : ε' → φ'} :
    Alike R (first.mapError f) (second.mapError g) := by
  cases alike with
  | failed => exact .failed
  | done related => exact .done related

/-- Stages that are alike one by one are alike one after the other. -/
theorem foldlM {stage : α → γ → Except ε α} {stage' : β → δ → Except ε' β} {f : γ → δ}
    (each : ∀ a b c, R a b → Alike R (stage a c) (stage' b (f c))) (items : List γ) {a : α} {b : β}
    (start : R a b) : Alike R (items.foldlM stage a) ((items.map f).foldlM stage' b) := by
  induction items generalizing a b with
  | nil => exact .done start
  | cons item items ih =>
      rw [List.foldlM_cons, List.map_cons, List.foldlM_cons]
      exact (each a b item start).bind fun _ _ _ _ related => ih related

theorem exists_ok (alike : Alike R first second) {a : α} (done : first = .ok a) :
    ∃ b, second = .ok b ∧ R a b := by
  cases alike with
  | failed => exact absurd done nofun
  | done related =>
      obtain rfl := Except.ok.inj done
      exact ⟨_, rfl, related⟩

end Alike

end Cellular
