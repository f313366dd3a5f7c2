import Cellular.Condition.Listing
import Cellular.Proofs.Source.Printing
import Cellular.Proofs.Validation.Folded

/-!
# Listed conditions

Where a condition is listed, every conjunction and every disjunction stands in parentheses, so
that each of them is written as an operand. A listed condition is therefore read as the
condition, with its nodes in their places and none of them joined with another.

A resolved condition is folded already. Listed by the names of its states it is resolved to
itself.
-/

namespace Cellular.Condition

variable {α β γ π : Type}

/-! ## Listed forms -/

mutual

/-- The listed form of a condition. -/
def listed (text : α → String) : Condition α → String
  | .test a => text a
  | .always => "true"
  | .not c => "!" ++ listed text c
  | .all cs => "(" ++ " & ".intercalate (listedAll text cs) ++ ")"
  | .any cs => "(" ++ " | ".intercalate (listedAll text cs) ++ ")"

/-- The listed forms of the operands of a node. -/
def listedAll (text : α → String) : List (Condition α) → List String
  | [] => []
  | c :: cs => listed text c :: listedAll text cs

end

theorem listedAll_eq (text : α → String) (cs : List (Condition α)) :
    listedAll text cs = cs.map (listed text) := by
  induction cs with
  | nil => rfl
  | cons c cs ih => rw [listedAll, ih, List.map_cons]

section Listing

variable {leaf : α → Except TreeFault String} {text : α → String}

private theorem listings_eq {cs : List (Condition α)}
    (each : ∀ c ∈ cs, c.listing leaf = .ok (c.listed text)) :
    listings leaf cs = .ok (listedAll text cs) := by
  induction cs with
  | nil => rfl
  | cons c cs ih =>
      rcases List.forall_mem_cons.mp each with ⟨first, others⟩
      rw [listings, first, ih others]
      rfl

/-- If all tests have texts, every condition has a listed form. -/
theorem listing_eq (leaf_eq : ∀ a, leaf a = .ok (text a)) (c : Condition α) :
    c.listing leaf = .ok (c.listed text) := by
  induction c using inductOn with
  | test a => exact leaf_eq a
  | always => rfl
  | not c ih =>
      rw [listing, ih]
      rfl
  | all cs ih | any cs ih =>
      rw [listing, listings_eq ih]
      rfl

end Listing

theorem listed_map (text : β → String) (f : α → β) (c : Condition α) :
    (c.map f).listed text = c.listed (text ∘ f) := by
  induction c using inductOn with
  | test a => rfl
  | always => rfl
  | not c ih => rw [map, listed, listed, ih]
  | all cs ih | any cs ih =>
      rw [map, listed, listed, listedAll_eq, listedAll_eq, mapList_eq, List.map_map]
      congr 3
      exact List.map_congr_left ih

/-- What is listed of a condition is read as an operand, and the operand is the condition. -/
theorem Readable.listed_written {c : Condition (CountTest Name)} (readable : c.Readable) :
    Written OperandPhrase c.anchored (c.listed CountTest.text) := by
  induction c using inductOn with
  | test a => exact test_written readable
  | always => exact readable.elim
  | not c ih => exact negation_written (ih readable)
  | all cs ih =>
      rcases readable with ⟨several, operands⟩
      rw [readableAll_iff] at operands
      have conjunction := operands_written several fun c member => ih c member (operands c member)
      rw [← mapList_eq, ← listedAll_eq] at conjunction
      exact conjunction.disjunction.parentheses
  | any cs ih =>
      rcases readable with ⟨several, operands⟩
      rw [readableAll_iff] at operands
      have disjunction := alternatives_written several fun c member =>
        (ih c member (operands c member)).conjunction
      rw [← mapList_eq, ← listedAll_eq] at disjunction
      exact disjunction.parentheses

/-! ## Resolving once more -/

section Resolving

variable {leaf : α → Except TreeFault (List π × Option β)} {f : β → α}

private theorem resolveList_of_folded {cs : List (Condition β)}
    (each : ∀ c ∈ cs, resolveBy leaf false (c.map f) = .ok ([], some c)) :
    resolveList leaf (mapList f cs) = .ok ([], some cs) := by
  induction cs with
  | nil => rfl
  | cons c cs ih =>
      rcases List.forall_mem_cons.mp each with ⟨first, others⟩
      rw [mapList, resolveList, first, ih others]
      rfl

/-- A folded condition is resolved to itself, if its tests are. -/
theorem Folded.resolveBy_map {c : Condition β} (folded : c.Folded) (printable : c.Printable)
    (tests : ∀ b ∈ c.tests, leaf (f b) = .ok ([], some b)) {negate : Bool}
    (single : negate = true → c.isNegation = false) :
    resolveBy leaf negate (c.map f) = .ok ([], some (negateIf negate c)) := by
  have operands {cs : List (Condition β)} (below : FoldedAll cs) (built : PrintableAll cs)
      (tests : ∀ b ∈ testsList cs, leaf (f b) = .ok ([], some b))
      (ih : ∀ c ∈ cs, c.Folded → c.Printable → (∀ b ∈ c.tests, leaf (f b) = .ok ([], some b)) →
        ∀ {negate : Bool}, (negate = true → c.isNegation = false) →
          resolveBy leaf negate (c.map f) = .ok ([], some (negateIf negate c))) :
      resolveList leaf (mapList f cs) = .ok ([], some cs) := by
    apply resolveList_of_folded
    intro c member
    have own : ∀ b ∈ c.tests, leaf (f b) = .ok ([], some b) := fun b occurs =>
      tests b (mem_testsList.mpr ⟨c, member, occurs⟩)
    exact ih c member (foldedAll_iff.mp below c member) (printableAll_iff.mp built c member) own
      (fun negated => absurd negated Bool.false_ne_true)
  induction c using inductOn generalizing negate with
  | test b =>
      rw [map, resolveBy, tests b (List.mem_singleton.mpr rfl)]
      rfl
  | always => exact printable.elim
  | not c ih =>
      cases negate with
      | true => exact absurd (single rfl) Bool.noConfusion
      | false => exact ih folded.2 printable tests fun _ => folded.1
  | all cs ih | any cs ih =>
      rw [map, resolveBy, operands folded printable.2 tests ih]
      rfl

end Resolving

end Cellular.Condition

namespace Cellular

/-! ## The names of states -/

/-- The name of a state, without a place. -/
def Registry.named (registry : Registry) (state : Nat) : Name :=
  ⟨registry.nameOf state, none⟩

section Named

variable {registry : Registry} {most : Option Nat}

theorem Registry.named_spelled {name : Name} (spelled : name.Spelled) {state : Nat}
    (known : registry.indexOf? name.text = some state) : (registry.named state).Spelled := by
  have text : (registry.named state).text = name.text := Registry.nameOf_of_indexOf? known
  rwa [Name.Spelled, text]

/-- A resolved test is resolved to itself. -/
theorem CountTest.leaf_named (distinct : registry.names.Nodup) {test : CountTest Name}
    {own : CountTest Nat} {problems : List Problem}
    (known : test.leaf registry most = .ok (problems, some own)) :
    (own.map registry.named).leaf registry most = .ok ([], some own) := by
  have resolves := (Prod.mk.inj (Except.ok.inj known)).2
  rcases CountTest.resolve_eq_some_iff.mp resolves with ⟨reachable, i, isIndex, rfl⟩
  have again := Registry.indexOf?_nameOf distinct (Registry.indexOf?_lt isIndex)
  exact CountTest.leaf_clean_iff.mpr ⟨reachable, i, again, rfl⟩

namespace Condition.ResolvesTo

variable {c : Condition (CountTest Name)} {resolved : Condition (CountTest Nat)} {negate : Bool}

/-- A resolved condition is resolved to itself. -/
theorem resolveBy_named (distinct : registry.names.Nodup)
    (resolves : c.ResolvesTo (CountTest.leaf registry most) negate resolved)
    (branching : c.Branching 1) :
    resolveBy (CountTest.leaf registry most) false
        (resolved.map (CountTest.map registry.named)) =
      .ok ([], some resolved) := by
  apply resolves.folded.resolveBy_map (resolves.printable branching)
  · intro own occurs
    rcases resolves.exists_test occurs with ⟨test, problems, known⟩
    exact CountTest.leaf_named distinct known
  · exact fun negated => absurd negated Bool.false_ne_true

private theorem readable_negateIf {c : Condition (CountTest Name)} (negate : Bool)
    (readable : c.Readable) : (negateIf negate c).Readable := by
  cases negate <;> exact readable

private theorem readableAll_of_forall₂ {cs : List (Condition (CountTest Name))}
    {operands : List (Condition (CountTest Nat))}
    (parts : List.Forall₂ (fun c operand =>
      c.Readable → (operand.map (CountTest.map registry.named)).Readable) cs operands)
    (readable : 2 ≤ cs.length ∧ ReadableAll cs) :
    2 ≤ (mapList (CountTest.map registry.named) operands).length ∧
      ReadableAll (mapList (CountTest.map registry.named) operands) := by
  rw [mapList_eq, List.length_map, ← parts.length_eq, readableAll_iff]
  use readable.1
  intro operand member
  rcases List.mem_map.mp member with ⟨own, inside, rfl⟩
  rcases exists_of_mem_right parts inside with ⟨c, inCs, kept⟩
  exact kept (readableAll_iff.mp readable.2 c inCs)

/-- By the names of its states a resolved condition can be read. -/
theorem readable_named (resolves : c.ResolvesTo (CountTest.leaf registry most) negate resolved)
    (readable : c.Readable) : (resolved.map (CountTest.map registry.named)).Readable := by
  revert readable
  apply resolves.inductOn (motive := fun _ c resolved =>
    c.Readable → (resolved.map (CountTest.map registry.named)).Readable)
  · intro negate test problems own known spelled
    rcases CountTest.exists_index_of_leaf known with ⟨i, isIndex, rfl⟩
    rw [map_negateIf]
    exact readable_negateIf negate (Registry.named_spelled spelled isIndex)
  · exact fun negate c resolved kept readable => kept readable
  · intro negate cs operands parts readable
    rw [map_negateIf]
    exact readable_negateIf negate (readableAll_of_forall₂ parts readable)
  · intro negate cs operands parts readable
    rw [map_negateIf]
    exact readable_negateIf negate (readableAll_of_forall₂ parts readable)

end Condition.ResolvesTo

end Named

end Cellular
