import Cellular.Proofs.Outcome
import Cellular.Tree.Encoding

/-!
# What a check finds

A check of a tree that ends without a fault adds some problems to those that were noted
before, whatever these are. So it can be said what the check finds by itself, and what a
sequence of checks finds is what each of them finds, in their order.

The names in a tree have no places, and its numbers are trees. Problems that are found in
the tree of a program are told from those of the program by this alone.
-/

namespace Cellular

/-- The name as a tree. -/
def Name.word (name : Name) : Tree :=
  .word name.text

/-- The name without its place. -/
def Name.bare (name : Name) : Name :=
  ⟨name.text, none⟩

namespace Problem

variable {ν μ : Type}

/-- The problem with other names and other numbers. -/
def map (f : Name → Name) (g : ν → μ) : Problem ν → Problem μ
  | unknownKey key => .unknownKey (f key)
  | wrongKind key expected => .wrongKind (f key) expected
  | repeatedKey first again => .repeatedKey (f first) (f again)
  | missingKey key => .missingKey key
  | noSuchAxis axis rank => .noSuchAxis (f axis) (g rank)
  | sizeNotPositive axis size => .sizeNotPositive (f axis) (g size)
  | magnitudeNotPositive axis direction magnitude =>
    .magnitudeNotPositive (f axis) direction (g magnitude)
  | emptyNeighborhood key => .emptyNeighborhood (f key)
  | repeatedState first again => .repeatedState (f first) (f again)
  | markedTwice state => .markedTwice (f state)
  | secondDefault first second => .secondDefault first (f second)
  | repeatedAttribute state key => .repeatedAttribute (f state) (f key)
  | noDefault key => .noDefault (f key)
  | undeclaredInBoundary state => .undeclaredInBoundary (f state)
  | undeclaredInRule role state => .undeclaredInRule role (f state)
  | undeclaredInCondition state => .undeclaredInCondition (f state)
  | outOfRange state comparison bound most => .outOfRange (f state) comparison (g bound) most
  | nestedTooDeep source target => .nestedTooDeep (f source) (f target)

/-- The problem as it is found in the tree of a program. -/
def bare (problem : Problem) : Problem Tree :=
  problem.map Name.bare Tree.whole

end Problem

/-- The warning as it is given for the tree of a program. -/
def Warning.bare (warning : Warning) : Warning :=
  ⟨warning.source.bare, warning.target.bare⟩

/-! ## Names and numbers -/

namespace Name

@[simp]
theorem name_word (name : Name) : name.word.name = name.bare :=
  rfl

@[simp]
theorem text_word (name : Name) : name.word.text = name.text :=
  rfl

@[simp]
theorem isWord_word (text : String) (name : Name) :
    name.word.isWord text = (name.text == text) :=
  rfl

@[simp]
theorem same_word (name other : Name) :
    name.word.same other.word = (name.text == other.text) :=
  rfl

end Name

namespace Tree

@[simp]
theorem isWord_word (text own : String) : (word own).isWord text = (own == text) :=
  rfl

@[simp]
theorem text_word (own : String) : (word own).text = own :=
  rfl

@[simp]
theorem same_whole (m n : Int) : (whole m).same (whole n) = (m == n) := by
  rw [whole, whole, same]
  simp [Scalar.same, Scalar.worth?]

@[simp]
theorem less?_whole (m n : Int) : (whole m).less? (whole n) = some (decide (m < n)) := by
  rw [whole, whole, less?]
  simp [Scalar.less?, Scalar.worth?]

@[simp]
theorem integer_whole (n : Int) : (whole n).integer = .ok n :=
  rfl

@[simp]
theorem isPositive_whole (n : Int) : (whole n).isPositive = .ok (decide (1 ≤ n)) := by
  have turned : (!decide (n < 1)) = decide (1 ≤ n) := by
    rw [← decide_not, decide_eq_decide, Int.not_lt]
  rw [isPositive, less?_whole, ← turned]
  rfl

/-! ## Findings -/

variable {α β γ δ : Type}

/-- The check ends with the given value and finds the given problems of a program. -/
def Finds (check : Check α) (found : List Problem) (a : α) : Prop :=
  ∀ noted, check.run noted = .ok (a, noted ++ found.map Problem.bare)

namespace Finds

theorem nothing (a : α) : Finds (pure a) [] a := by
  intro noted
  rw [List.map_nil, List.append_nil]
  rfl

theorem lifted {stage : Except TreeFault α} {a : α} (done : stage = .ok a) :
    Finds (liftM stage) [] a := by
  subst done
  exact nothing a

theorem problems (found : List Problem) : Finds (note (found.map Problem.bare)) found () := by
  intro noted
  rfl

theorem bind {check : Check α} {next : α → Check β} {found more : List Problem} {a : α} {b : β}
    (first : Finds check found a) (second : Finds (next a) more b) :
    Finds (check >>= next) (found ++ more) b := by
  intro noted
  rw [StateT.run_bind, first noted]
  change (next a).run (noted ++ found.map Problem.bare) = _
  rw [second, List.append_assoc, List.map_append]

/-- What is made of the value of a check finds no further problems. -/
theorem returning {check : Check α} {found : List Problem} {a : α} (first : Finds check found a)
    (f : α → β) : Finds (check >>= fun a => pure (f a)) found (f a) := by
  intro noted
  rw [StateT.run_bind, first noted]
  rfl

/-- Problems are noted before a check that finds none. -/
theorem noting (found : List Problem) {rest : Check α} {a : α} (quiet : Finds rest [] a) :
    Finds (note (found.map Problem.bare) >>= fun _ => rest) found a := by
  intro noted
  exact quiet (noted ++ found.map Problem.bare) |>.trans (by rw [List.map_nil, List.append_nil])

/-- A stage that only fails with a fault finds nothing. -/
theorem after {stage : Except TreeFault α} {next : α → Check β} {found : List Problem} {a : α}
    {b : β} (done : stage = .ok a) (rest : Finds (next a) found b) :
    Finds (liftM stage >>= next) found b :=
  (lifted done).bind rest

theorem require (fine : Bool) (problem : Problem) :
    Finds (Tree.require fine problem.bare) (if fine then [] else [problem]) fine := by
  cases fine with
  | true => exact nothing true
  | false => exact (problems [problem]).returning fun _ => false

/-! ## Sequences of checks -/

variable {tree : α → δ}

/-- Checks of the items of a list find what each of them finds. -/
theorem mapM {check : δ → Check β} {found : α → List Problem} {result : α → β} {items : List α}
    (each : ∀ item ∈ items, Finds (check (tree item)) (found item) (result item)) :
    Finds ((items.map tree).mapM check) (items.flatMap found) (items.map result) := by
  induction items with
  | nil => exact nothing []
  | cons item items ih =>
      rcases List.forall_mem_cons.mp each with ⟨first, others⟩
      rw [List.map_cons, List.mapM_cons]
      exact first.bind ((ih others).returning (result item :: ·))

/-- Checks that go on from each other keep a relation to what is known without them, and find
the problems that are known without them. -/
theorem foldlM {check : β → δ → Check β} {next : γ → α → γ} {known : γ → List Problem}
    {R : γ → β → Prop} {items : List α}
    (each : ∀ c b, R c b → ∀ item ∈ items, ∃ b' found, Finds (check b (tree item)) found b' ∧
      R (next c item) b' ∧ known (next c item) = known c ++ found)
    {c : γ} {b : β} (start : R c b) :
    ∃ b' found, Finds ((items.map tree).foldlM check b) found b' ∧
      R (items.foldl next c) b' ∧ known (items.foldl next c) = known c ++ found := by
  induction items generalizing c b with
  | nil => exact ⟨b, [], nothing b, start, (List.append_nil _).symm⟩
  | cons item items ih =>
      rcases each c b start item List.mem_cons_self with ⟨b', found, first, related, grown⟩
      have others := fun c b own item member =>
        each c b own item (List.mem_cons_of_mem _ member)
      rcases ih others related with ⟨b'', more, rest, final, further⟩
      have all : Finds (((item :: items).map tree).foldlM check b) (found ++ more) b'' := by
        rw [List.map_cons, List.foldlM_cons]
        exact first.bind rest
      exact ⟨b'', found ++ more, all, final, by
        rw [List.foldl_cons, further, grown, List.append_assoc]⟩

end Finds

end Tree

end Cellular
