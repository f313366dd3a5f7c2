import Cellular.Proofs.Outcome
import Cellular.Proofs.Source.Printing

/-!
# Printing and reading

A program that was read can be printed, and reading what is printed gives the program
again, but for the places of its names. Printing does not look at these places, so that
printing what is read again gives the same text.
-/

namespace Cellular

/-! ## Printed forms -/

/-- The printed form of a rule whose condition has one. -/
def Rule.printed (rule : Rule Name) : String :=
  ruleText rule.source.text rule.target.text (rule.condition.printed CountTest.text 0)

/-- The printed form of a value whose conditions have one. -/
def Value.printed : Value → String
  | environment space => space.text
  | neighborhood shape => shape.text
  | boundary edge => edge.declaredText
  | states block => blockText (block.map StateEntry.text)
  | rules block => rulesText (block.map Rule.printed)

/-- The printed form of a declaration whose conditions have one. -/
def Declaration.printed (declaration : Declaration) : String :=
  declarationText declaration.key.text declaration.value.printed

theorem Condition.Readable.printable {c : Condition (CountTest Name)} (readable : c.Readable) :
    c.Printable := by
  induction c using inductOn with
  | test a => trivial
  | always => exact readable.elim
  | not c ih => exact ih readable
  | all cs ih | any cs ih =>
      rcases readable with ⟨several, operands⟩
      rw [readableAll_iff] at operands
      constructor
      · exact List.ne_nil_of_length_pos (by omega)
      · apply printableAll_iff.mpr
        exact fun c member => ih c member (operands c member)

theorem Rule.Readable.text_eq {rule : Rule Name} (readable : rule.Readable) :
    rule.text = .ok rule.printed := by
  have condition : rule.condition.print (fun test => .ok test.text) 0 = .ok _ :=
    Condition.print_eq (fun _ => rfl) readable.condition.printable 0
  rw [Rule.text, condition]
  rfl

theorem Value.Readable.text_eq {value : Value} (readable : value.Readable) :
    value.text = .ok value.printed := by
  cases value with
  | rules block =>
      rw [Value.text, mapM_eq_ok_map fun rule member => (readable rule member).text_eq]
      rfl
  | _ => rfl

theorem Declaration.Readable.text_eq {declaration : Declaration} (readable : declaration.Readable) :
    declaration.text = .ok declaration.printed := by
  rw [Declaration.text, readable.value.text_eq]
  rfl

theorem printProgram_eq {program : List Declaration}
    (readable : ∀ declaration ∈ program, declaration.Readable) :
    printProgram program = .ok (programText (program.map Declaration.printed)) := by
  rw [printProgram, mapM_eq_ok_map fun declaration member => (readable declaration member).text_eq]
  rfl

/-! ## Printing without places -/

theorem Condition.printed_anchored (c : Condition (CountTest Name)) (outer : Int) :
    c.anchored.printed CountTest.text outer = c.printed CountTest.text outer := by
  induction c using inductOn generalizing outer with
  | test a => rfl
  | always => rfl
  | not c ih => rw [anchored, map, printed, printed, ih]
  | all cs ih | any cs ih =>
      rw [anchored, map, printed, printed, printedAll_eq, printedAll_eq, mapList_eq, List.map_map]
      congr 2
      exact List.map_congr_left fun c member => ih c member _

theorem Value.printed_anchored (value : Value) : value.anchored.printed = value.printed := by
  cases value with
  | environment space =>
      simp [printed, map, Environment.text, Environment.map, sizesMap, Name.anchored,
        Function.comp_def]
  | neighborhood shape =>
      cases shape with
      | custom rules =>
          have same : OffsetRule.text ∘ OffsetRule.anchored = OffsetRule.text := rfl
          simp only [printed, map, Neighborhood.map, Neighborhood.text, List.map_map, same]
      | _ => rfl
  | boundary edge =>
      cases edge with
      | static state => cases state <;> rfl
      | _ => rfl
  | states block =>
      have marks : Attribute.text ∘ Attribute.anchored = Attribute.text := by
        funext mark
        cases mark <;> rfl
      have same : StateEntry.text ∘ StateEntry.anchored = StateEntry.text := by
        funext entry
        simp only [Function.comp_apply, StateEntry.text, StateEntry.map, List.map_map, marks]
        rfl
      simp only [printed, map, List.map_map, same]
  | rules block =>
      have same : Rule.printed ∘ Rule.anchored = Rule.printed := by
        funext rule
        simp only [Function.comp_apply, Rule.printed, Rule.map, Condition.printed_anchored]
        rfl
      simp only [printed, map, List.map_map, same]

theorem Declaration.printed_anchored (declaration : Declaration) :
    declaration.anchored.printed = declaration.printed := by
  rw [printed, anchored, map, Value.printed_anchored]
  rfl

/-- Programs that are the same but for the places of their names are printed alike. -/
theorem map_printed_of_anchored {first second : List Declaration}
    (same : first.map Declaration.anchored = second.map Declaration.anchored) :
    first.map Declaration.printed = second.map Declaration.printed := by
  have moved : Declaration.printed = Declaration.printed ∘ Declaration.anchored := by
    funext declaration
    exact declaration.printed_anchored.symm
  rw [moved, ← List.map_map, ← List.map_map, same]

/-! ## Printed programs are written from sentences -/

/-- A rule is written with any text that its condition is written with. -/
theorem rule_written {source target : Name} (isSource : source.Spelled)
    (isTarget : target.Spelled) {c : Condition (CountTest Name)} {text : String}
    (condition : Written DisjunctionPhrase c text) :
    Written RulePhrase ⟨source.anchored, target.anchored, c⟩
      (ruleText source.text target.text text) := by
  rcases condition with ⟨tokens, ⟨alternatives, phrase, rfl⟩, spelled, writes⟩
  have whole : RulePhrase ([Keyword.fromWord.token, source.token, Keyword.toWord.token,
      target.token, Mark.assign.token] ++ tokens)
      ⟨source.anchored, target.anchored, gathered .any alternatives⟩ :=
    .mk rfl rfl rfl rfl rfl phrase
  refine ⟨_, whole, ?_, ?_⟩
  · simp only [AllSpelled.append_iff, AllSpelled.cons_iff]
    exact ⟨⟨rfl, isSource, rfl, isTarget, rfl, nofun⟩, spelled⟩
  · have sourced := (Writes.token Keyword.fromWord.token).blank (.token source.token)
      (c := ' ') rfl
    have leading := sourced.blank (.token Keyword.toWord.token) (c := ' ') rfl
    have targeted := leading.blank (.token target.token) (c := ' ') rfl
    have written := targeted.around writes .assign
    have origin : "from " = Keyword.fromWord.token.text ++ String.singleton ' ' := rfl
    have into : " to " =
      String.singleton ' ' ++ Keyword.toWord.token.text ++ String.singleton ' ' := rfl
    rw [ruleText, origin, into]
    simp only [String.append_assoc] at written ⊢
    exact written

private theorem intercalate_cons (separator first : String) (others : List String) :
    separator.intercalate (first :: others) =
      first ++ String.join (others.map (separator ++ ·)) := by
  induction others generalizing first with
  | nil => simp
  | cons second others ih =>
      rw [String.intercalate_cons_cons, ih, List.map_cons, String.join_cons]
      simp only [String.append_assoc]

theorem blockText_eq (lines : List String) :
    blockText lines = "\x7b" ++ String.join (lines.map ("\n    " ++ ·)) ++ "\n\x7d" := by
  have indented : ∀ line : String, "\n" ++ ("    " ++ line) = "\n    " ++ line := by
    intro line
    rw [← String.append_assoc]
    rfl
  have closes : "\n\x7d" = "\n" ++ "\x7d" := rfl
  rw [blockText, intercalate_cons, List.map_append, String.join_append, List.map_map, closes]
  simp [indented, Function.comp_def, String.append_assoc]

/-- Items in a block, each on a line of its own. -/
private theorem block_written {α β : Type} {phrase : List Token → β → Prop} {item : α → β}
    {text : α → String} {items : List α}
    (each : ∀ a ∈ items, Written phrase (item a) (text a)) :
    ∃ tokens, Repeated phrase tokens (items.map item) ∧
      AllSpelled ([Mark.openBrace.token] ++ tokens ++ [Mark.closeBrace.token]) ∧
      Writes ([Mark.openBrace.token] ++ tokens ++ [Mark.closeBrace.token])
        (blockText (items.map text)) := by
  rcases written_lines each with ⟨tokens, repeated, spelled, writes⟩
  rw [blockText_eq, List.map_map]
  exact ⟨tokens, repeated, spelled.enclosed .openBrace .closeBrace, writes.block⟩

/-- A block of rules is written with any texts that its rules are written with. -/
theorem rules_written {α : Type} {items : List α} {rule : α → Rule Name} {text : α → String}
    (each : ∀ a ∈ items, Written RulePhrase (rule a) (text a)) :
    Written ValuePhrase (.rules (items.map rule)) (rulesText (items.map text)) := by
  rcases block_written each with ⟨tokens, repeated, spelled, writes⟩
  cases items with
  | nil =>
      refine ⟨[Mark.openBrace.token] ++ [] ++ [Mark.closeBrace.token], .rules rfl .nil rfl,
        ?_, ?_⟩
      · exact AllSpelled.cons_iff.mpr ⟨rfl, AllSpelled.cons_iff.mpr ⟨rfl, nofun⟩⟩
      · exact (Writes.token Mark.openBrace.token).blank (.token Mark.closeBrace.token)
          (c := ' ') rfl
  | cons first rest => exact ⟨_, .rules rfl repeated rfl, spelled, writes⟩

theorem value_written {value : Value} (readable : value.Readable) :
    Written ValuePhrase value.anchored value.printed := by
  cases value with
  | environment space => exact environment_written readable
  | neighborhood shape => exact neighborhood_written readable
  | boundary edge => exact boundary_written readable
  | states block =>
      rcases readable with ⟨nonempty, entries⟩
      have some_entry : block.map StateEntry.anchored ≠ [] :=
        fun empty => nonempty (List.map_eq_nil_iff.mp empty)
      rcases block_written fun entry member => entry_written (entries.each entry member) with
        ⟨tokens, repeated, spelled, writes⟩
      exact ⟨_, .states rfl (repeated.series some_entry) rfl, spelled, writes⟩
  | rules block =>
      apply rules_written
      intro rule member
      have readable := readable rule member
      exact rule_written readable.source readable.target readable.condition.written.disjunction

/-- In a program that can be read no name is taken for a keyword. -/
theorem Value.Readable.clear {value : Value} (readable : value.Readable) :
    value.anchored.Clear := by
  cases value with
  | neighborhood shape =>
      cases shape with
      | custom rules =>
          intro rule isFirst
          rw [List.head?_map] at isFirst
          rcases Option.map_eq_some_iff.mp isFirst with ⟨other, found, rfl⟩
          exact readable.2.first other found
      | _ => trivial
  | states block =>
      rcases readable with ⟨_, entries⟩
      constructor
      · rintro entry member mark marked
        rcases List.mem_map.mp member with ⟨other, isEntry, rfl⟩
        rcases List.mem_map.mp marked with ⟨own, isMark, rfl⟩
        have readable := (entries.each other isEntry).attributes own isMark
        cases own with
        | defaultMark => trivial
        | keyed key token => exact readable.2.1
      · intro entry isFirst
        rw [List.head?_map] at isFirst
        rcases Option.map_eq_some_iff.mp isFirst with ⟨other, found, rfl⟩
        exact entries.first other found
      · intro entry next rest same unmarked
        rcases List.map_eq_cons_iff.mp same with ⟨first, others, rfl, rfl, tail⟩
        rcases List.map_eq_cons_iff.mp tail with ⟨second, further, rfl, rfl, _⟩
        exact entries.second first second further rfl (List.map_eq_nil_iff.mp unmarked)
  | _ => trivial

/-- The tokens of a declaration whose key is read as what it is. -/
def ClearDeclarationPhrase (tokens : List Token) (declaration : Declaration) : Prop :=
  DeclarationPhrase tokens declaration ∧ declaration.value.Clear ∧
    ∀ key ∈ tokens.head?, key.terminal = .name → key.text ≠ Keyword.neighborhood.text

/-- A declaration is written with any text that its value is written with. -/
theorem declaration_written {key : Name} (isKey : key.Spelled) {value : Value}
    (clear : value.Clear) {text : String} (written : Written ValuePhrase value text) :
    Written ClearDeclarationPhrase ⟨key.anchored, value⟩ (declarationText key.text text) := by
  rcases written with ⟨tokens, phrase, spelled, writes⟩
  have whole : DeclarationPhrase ([key.keyToken, Mark.assign.token] ++ tokens)
      ⟨key.anchored, value⟩ :=
    .mk key.keyToken_isKey rfl phrase
  refine ⟨_, ⟨whole, clear, ?_⟩, ?_, ?_⟩
  · intro token isFirst isName
    obtain rfl : key.keyToken = token := Option.some.inj isFirst
    exact Name.keyToken_clear isName
  · simp only [AllSpelled.append_iff, AllSpelled.cons_iff]
    exact ⟨⟨isKey.keyToken, rfl, nofun⟩, spelled⟩
  · exact (Writes.token key.keyToken).around writes .assign

/-- The tokens of a whole program, and where they lead. -/
def ProgramRun (tokens : List Token) (program : List Declaration) : Prop :=
  ∃ final, Run (.between []) tokens final ∧ final.EndsDeclaration program.reverse

section Programs

variable {α : Type} {items : List α} {declaration : α → Declaration} {text : α → String}

private theorem program_written
    (each : ∀ a ∈ items, Written ClearDeclarationPhrase (declaration a) (text a)) :
    Written ProgramRun (items.map declaration) ("\n".intercalate (items.map text)) := by
  by_cases empty : items = []
  · subst empty
    exact ⟨[], ⟨_, .done, Place.between_ends []⟩, nofun, .nil⟩
  apply written_intercalate _ _ empty each
  · rintro declaration text ⟨tokens, ⟨phrase, clear, keyClear⟩, spelled, writes⟩
    have run := phrase.run (Place.between_ends []) spelled keyClear clear
    exact ⟨tokens, run, spelled, writes⟩
  · rintro declarations declaration before text ⟨first, ⟨place, run, ends⟩, spelled, writes⟩
      ⟨last, ⟨phrase, clear, keyClear⟩, spelled', writes'⟩
    rcases phrase.run ends spelled' keyClear clear with ⟨final, further, ends⟩
    refine ⟨first ++ last, ⟨final, run.append further, ?_⟩, ?_, ?_⟩
    · rwa [List.reverse_concat]
    · exact AllSpelled.append_iff.mpr ⟨spelled, spelled'⟩
    · exact writes.blank writes' (c := '\n') rfl

/-! ## The round trip -/

/-- Declarations that are written one by one are read as a program. -/
theorem readProgram_of_each_written
    (each : ∀ a ∈ items, Written ClearDeclarationPhrase (declaration a) (text a)) :
    ∃ read, readProgram (programText (items.map text)) = .ok read ∧
      read.map Declaration.anchored = (items.map declaration).map Declaration.anchored := by
  rcases program_written each with ⟨tokens, ⟨final, run, ends⟩, _, writes⟩
  have finished : final.finish? = some (items.map declaration) := by
    rw [ends.last, List.reverse_reverse]
  have laid : Laid Apart tokens (programText (items.map text)).toList := by
    have ended := writes [] ['\n'] (breaks_blank rfl []) (.blank rfl .done)
    rw [List.append_nil] at ended
    rw [programText, String.toList_append]
    exact ended
  exact run.readProgram finished laid

end Programs

/-- Declarations that are written with their names at one place are read as the program. -/
theorem readProgram_of_written {program : List Declaration} {text : Declaration → String}
    (each : ∀ declaration ∈ program,
      Written ClearDeclarationPhrase declaration.anchored (text declaration)) :
    ∃ read, readProgram (programText (program.map text)) = .ok read ∧
      read.map Declaration.anchored = program.map Declaration.anchored := by
  rcases readProgram_of_each_written each with ⟨read, accepted, same⟩
  refine ⟨read, accepted, same.trans ?_⟩
  rw [List.map_map]
  exact List.map_congr_left fun declaration _ => declaration.anchored_anchored

/-- What is printed of a program that can be read is read as the program. -/
theorem readProgram_programText {program : List Declaration}
    (readable : ∀ declaration ∈ program, declaration.Readable) :
    ∃ read, readProgram (programText (program.map Declaration.printed)) = .ok read ∧
      read.map Declaration.anchored = program.map Declaration.anchored :=
  readProgram_of_written fun declaration member =>
    declaration_written (readable declaration member).key (readable declaration member).value.clear
      (value_written (readable declaration member).value)

/-- Printing and reading return to the program: whatever is read can be printed, what is
printed is read as the same program, and that program is printed as the same text. -/
theorem readProgram_printProgram {source : String} {program : List Declaration}
    (accepted : readProgram source = .ok program) :
    ∃ text read, printProgram program = .ok text ∧ readProgram text = .ok read ∧
      read.map Declaration.anchored = program.map Declaration.anchored ∧
      printProgram read = .ok text := by
  have readable := readable_of_readProgram accepted
  rcases readProgram_programText readable with ⟨read, again, same⟩
  refine ⟨_, read, printProgram_eq readable, again, same, ?_⟩
  rw [printProgram_eq (readable_of_readProgram again), map_printed_of_anchored same]

theorem readProgram_printProgram_parentheses : ∃ program text read,
    readProgram "r := { from a to b := !((neighborhood(a) == 01 | neighborhood(b) < -2)) }" =
      .ok program ∧
    printProgram program = .ok text ∧ readProgram text = .ok read ∧
    read.map Declaration.anchored = program.map Declaration.anchored ∧
    printProgram read = .ok text := by
  have done : (readProgram
      "r := { from a to b := !((neighborhood(a) == 01 | neighborhood(b) < -2)) }").toOption.isSome =
        true := by
    decide +kernel
  cases accepted : readProgram
      "r := { from a to b := !((neighborhood(a) == 01 | neighborhood(b) < -2)) }" with
  | error fault =>
      rw [accepted] at done
      exact absurd done Bool.false_ne_true
  | ok program =>
      rcases readProgram_printProgram accepted with ⟨text, read, whole⟩
      exact ⟨program, text, read, rfl, whole⟩

end Cellular
