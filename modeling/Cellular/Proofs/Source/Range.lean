import Cellular.Proofs.Source.Numbers
import Cellular.Proofs.Source.RoundTrip

/-!
# Programs that have a text

What is read from a text is readable and its numbers can be written. What is printed of a
readable program is a text of the grammar, and stands for that program; if its numbers can be
written, so does a text that is accepted. These programs are therefore the only ones that have
a text, and all of them have one. Whether a program is readable does not depend on the places
of its names, which are not the same in every text that it is read from.
-/

namespace Cellular

/-! ## Readable at any place -/

theorem Environment.readable_anchored {space : Environment} :
    space.anchored.Readable ↔ space.Readable := by
  have axes : (∀ size ∈ space.anchored.sizes, size.1.IsAxis) ↔
      ∀ size ∈ space.sizes, size.1.IsAxis :=
    List.forall_mem_map
  constructor
  · rintro ⟨rank, each⟩
    exact ⟨rank, axes.mp each⟩
  · rintro ⟨rank, each⟩
    exact ⟨rank, axes.mpr each⟩

theorem Neighborhood.readable_anchored {shape : Neighborhood} :
    shape.anchored.Readable ↔ shape.Readable := by
  cases shape with
  | custom rules =>
      have axes : (∀ rule ∈ rules.map OffsetRule.anchored, rule.axis.IsAxis) ↔
          ∀ rule ∈ rules, rule.axis.IsAxis :=
        List.forall_mem_map
      have first : (∀ rule ∈ (rules.map OffsetRule.anchored).head?,
            rule.axis.text ≠ Keyword.fromWord.text) ↔
          ∀ rule ∈ rules.head?, rule.axis.text ≠ Keyword.fromWord.text := by
        cases rules <;> simp [OffsetRule.map, Name.anchored]
      constructor
      · rintro ⟨nonempty, readable⟩
        exact ⟨mt List.map_eq_nil_iff.mpr nonempty, axes.mp readable.axes, first.mp readable.first⟩
      · rintro ⟨nonempty, readable⟩
        exact ⟨mt List.map_eq_nil_iff.mp nonempty, axes.mpr readable.axes,
          first.mpr readable.first⟩
  | _ => exact Iff.rfl

theorem Attribute.readable_anchored {mark : Attribute} :
    mark.anchored.Readable ↔ mark.Readable := by
  cases mark <;> exact Iff.rfl

theorem StateEntry.readable_anchored {entry : StateEntry} :
    entry.anchored.Readable ↔ entry.Readable := by
  have marks : (∀ mark ∈ entry.anchored.attributes, mark.Readable) ↔
      ∀ mark ∈ entry.attributes, mark.Readable := by
    simp only [map, List.forall_mem_map, Attribute.readable_anchored]
  constructor
  · rintro ⟨name, each⟩
    exact ⟨name, marks.mp each⟩
  · rintro ⟨name, each⟩
    exact ⟨name, marks.mpr each⟩

theorem statesReadable_anchored {block : List StateEntry} :
    StatesReadable (block.map StateEntry.anchored) ↔ StatesReadable block := by
  have each : (∀ entry ∈ block.map StateEntry.anchored, entry.Readable) ↔
      ∀ entry ∈ block, entry.Readable := by
    simp only [List.forall_mem_map, StateEntry.readable_anchored]
  constructor
  · rintro ⟨readable, first, second⟩
    refine ⟨each.mp readable, ?_, ?_⟩
    · intro entry isFirst
      exact first entry.anchored (by rw [List.head?_map, isFirst]; rfl)
    · rintro entry next rest rfl unmarked
      exact second entry.anchored next.anchored _ rfl (List.map_eq_nil_iff.mpr unmarked)
  · rintro ⟨readable, first, second⟩
    refine ⟨each.mpr readable, ?_, ?_⟩
    · intro entry isFirst
      rw [List.head?_map] at isFirst
      rcases Option.map_eq_some_iff.mp isFirst with ⟨own, found, rfl⟩
      exact first own found
    · intro entry next rest same unmarked
      rcases List.map_eq_cons_iff.mp same with ⟨own, others, rfl, rfl, tail⟩
      rcases List.map_eq_cons_iff.mp tail with ⟨following, further, rfl, rfl, _⟩
      exact second own following further rfl (List.map_eq_nil_iff.mp unmarked)

theorem Condition.readable_anchored {c : Condition (CountTest Name)} :
    c.anchored.Readable ↔ c.Readable := by
  induction c using inductOn with
  | test a => exact Iff.rfl
  | always => exact Iff.rfl
  | not c ih => exact ih
  | all cs ih | any cs ih =>
      rw [anchored, map, mapList_eq, Readable, Readable, List.length_map, readableAll_iff,
        readableAll_iff, List.forall_mem_map]
      exact and_congr_right fun _ => forall₂_congr ih

theorem Rule.readable_anchored {rule : Rule Name} : rule.anchored.Readable ↔ rule.Readable := by
  constructor
  · rintro ⟨source, target, condition⟩
    exact ⟨source, target, Condition.readable_anchored.mp condition⟩
  · rintro ⟨source, target, condition⟩
    exact ⟨source, target, Condition.readable_anchored.mpr condition⟩

theorem Value.readable_anchored {value : Value} : value.anchored.Readable ↔ value.Readable := by
  cases value with
  | environment space => exact Environment.readable_anchored
  | neighborhood shape => exact Neighborhood.readable_anchored
  | boundary edge =>
      cases edge with
      | static state => cases state <;> exact Iff.rfl
      | _ => exact Iff.rfl
  | states block =>
      rw [anchored, map, Readable, Readable, statesReadable_anchored, ne_eq, List.map_eq_nil_iff]
  | rules block => simp only [map, Readable, List.forall_mem_map, Rule.readable_anchored]

theorem Declaration.readable_anchored {declaration : Declaration} :
    declaration.anchored.Readable ↔ declaration.Readable := by
  constructor
  · rintro ⟨key, value⟩
    exact ⟨key, Value.readable_anchored.mp value⟩
  · rintro ⟨key, value⟩
    exact ⟨key, Value.readable_anchored.mpr value⟩

/-- Programs that are the same but for the places of their names are readable together. -/
theorem readable_iff_of_anchored {first second : List Declaration}
    (same : first.map Declaration.anchored = second.map Declaration.anchored) :
    (∀ declaration ∈ first, declaration.Readable) ↔
      ∀ declaration ∈ second, declaration.Readable := by
  have moved : ∀ program : List Declaration,
      (∀ declaration ∈ program.map Declaration.anchored, declaration.Readable) ↔
        ∀ declaration ∈ program, declaration.Readable := by
    intro program
    simp only [List.forall_mem_map, Declaration.readable_anchored]
  rw [← moved first, same, moved second]

/-! ## The range of the reader -/

/-- The reader returns the readable programs whose numbers can be written and no others, but for
the places of their names. Where it takes a name, it also takes the word of a keyword, unless the
program would not be readable. -/
theorem exists_readSource_iff_readable (program : List Declaration) :
    ((∃ source read, readSource source = .ok read ∧
      read.map Declaration.anchored = program.map Declaration.anchored) ↔
        (∀ declaration ∈ program, declaration.Readable) ∧
          ∀ n ∈ numbersOf program, isWritable n = true) ∧
    ∀ (word : Keyword) (place : Option Position), Name.Spelled ⟨word.text, place⟩ := by
  refine ⟨⟨?_, ?_⟩, fun word _ => word.spells_name⟩
  · rintro ⟨source, read, accepted, same⟩
    rcases readSource_eq_ok_iff.mp accepted with ⟨tokens, reads, _⟩
    have isProgram : readProgram source = .ok read := readFrom_eq_ok_iff.mpr ⟨tokens, reads⟩
    refine ⟨(readable_iff_of_anchored same).mp (readable_of_readProgram isProgram), ?_⟩
    rw [← numbersOf_congr same]
    exact isWritable_of_readSource accepted
  · rintro ⟨readable, writable⟩
    rcases readProgram_programText readable with ⟨printed, accepted, same⟩
    rcases readFrom_eq_ok_iff.mp accepted with ⟨tokens, reads⟩
    rcases reads.run with ⟨final, run, finished⟩
    rw [← numbersOf_congr same] at writable
    rcases run.exists_readSource finished writable with ⟨source, read, again, same'⟩
    exact ⟨source, read, again, same'.trans same⟩

/-- A readable program whose number has too many digits: no text is read as this program. -/
theorem readSource_ne_ok_readable :
    (∀ declaration ∈ sizedProgram (10 ^ greatestDigits : Nat), declaration.Readable) ∧
      ∀ source read, readSource source = .ok read →
        read.map Declaration.anchored ≠
          (sizedProgram (10 ^ greatestDigits : Nat)).map Declaration.anchored := by
  constructor
  · refine List.forall_mem_singleton.mpr ⟨?_, ?_⟩
    · exact ⟨'e', "nvironment".toList, rfl, rfl, List.all_eq_true.mp rfl⟩
    · refine ⟨by decide, List.forall_mem_singleton.mpr ?_⟩
      exact Or.inr ⟨'x', [], rfl, rfl, nofun⟩
  · intro source read accepted same
    have number : ((10 ^ greatestDigits : Nat) : Int) ∈ numbersOf read := by
      rw [numbersOf_congr same]
      exact List.mem_singleton_self _
    have writable := isWritable_of_readSource accepted _ number
    rw [isWritable_pow_eq_false (Nat.le_refl _)] at writable
    exact absurd writable nofun

end Cellular
