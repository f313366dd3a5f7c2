import Cellular.Proofs.Condition.Listed
import Cellular.Proofs.Program.Rows

/-!
# Descriptions line by line

The sentences of a description stand on lines of their own, as no name of a state breaks a
line. Each kind of line begins in its own way. So the line with the number of the rules can be
told from the others, and so can the lines of the rules, which begin like rules of a source
text.
-/

namespace Cellular

/-! ## Lines of a text -/

namespace Text

/-- The lines of a text. -/
def lines (text : String) : List String :=
  (text.toList.splitOn '\n').map String.ofList

/-- A text that stands on one line. -/
def OneLine (text : String) : Prop :=
  '\n' ∉ text.toList

instance (text : String) : Decidable (OneLine text) :=
  inferInstanceAs (Decidable ('\n' ∉ text.toList))

@[simp]
theorem oneLine_append {first second : String} :
    OneLine (first ++ second) ↔ OneLine first ∧ OneLine second := by
  rw [OneLine, String.toList_append, List.mem_append, not_or]
  rfl

theorem oneLine_intercalate {separator : String} (single : OneLine separator)
    {texts : List String} (each : ∀ text ∈ texts, OneLine text) :
    OneLine (separator.intercalate texts) := by
  induction texts with
  | nil => exact List.not_mem_nil
  | cons first texts ih =>
      rcases List.forall_mem_cons.mp each with ⟨head, others⟩
      cases texts with
      | nil =>
          rw [String.intercalate_singleton]
          exact head
      | cons second texts =>
          rw [String.intercalate_cons_cons, oneLine_append, oneLine_append]
          exact ⟨⟨head, single⟩, ih others⟩

/-- Lines that are put together can be taken apart. -/
theorem lines_intercalate {parts : List String} (nonempty : parts ≠ [])
    (each : ∀ line ∈ parts, OneLine line) : lines ("\n".intercalate parts) = parts := by
  have newline : "\n".toList = ['\n'] := rfl
  rw [lines, String.toList_intercalate, newline, List.splitOn_intercalate]
  · rw [List.map_map]
    exact (List.map_congr_left fun line _ => String.ofList_toList).trans (List.map_id parts)
  · exact List.forall_mem_map.mpr each
  · exact mt List.map_eq_nil_iff.mp nonempty

private theorem toList_toString (n : Nat) : (toString n).toList = Nat.toDigits 10 n :=
  Nat.toList_repr

theorem toString_injective : Function.Injective (toString : Nat → String) := by
  intro m n same
  have digits := congrArg (fun text => Nat.ofDigitChars 10 text.toList 0) same
  simpa only [toList_toString, Nat.ofDigitChars_ten_toDigits] using digits

theorem oneLine_nat (n : Nat) : OneLine (toString n) := by
  rw [OneLine, toList_toString]
  intro member
  exact absurd (digits_are_digits n _ member) (by decide)

theorem oneLine_int (n : Int) : OneLine (toString n) := by
  cases n with
  | ofNat n => exact oneLine_nat n
  | negSucc n =>
      have signed : toString (Int.negSucc n) = "-" ++ toString (n + 1) := rfl
      rw [signed, oneLine_append]
      exact ⟨by decide, oneLine_nat (n + 1)⟩

theorem oneLine_of_spells {text : String} (spelled : Terminal.name.Spells text.toList) :
    OneLine text := by
  rcases spelled with ⟨first, rest, chars, start, parts⟩
  rw [OneLine, chars, List.mem_cons, not_or]
  constructor
  · rintro rfl
    exact absurd start (by decide)
  · intro member
    exact absurd (parts '\n' member) (by decide)

theorem oneLine_test {test : CountTest String} (name : OneLine test.state) :
    OneLine test.text := by
  have symbol : OneLine test.comparison.symbol := by
    cases test.comparison <;> decide
  change OneLine ("neighborhood(" ++ test.state ++ ") " ++ test.comparison.symbol ++ " " ++
    toString test.bound)
  simp only [String.append_assoc, oneLine_append]
  exact ⟨by decide, name, by decide, symbol, by decide, oneLine_int test.bound⟩

theorem oneLine_listed {α : Type} {text : α → String} (each : ∀ a, OneLine (text a))
    (c : Condition α) : OneLine (c.listed text) := by
  induction c using Condition.inductOn with
  | test a => exact each a
  | always =>
      rw [Condition.listed]
      decide
  | not c ih => exact oneLine_append.mpr ⟨by decide, ih⟩
  | all cs ih | any cs ih =>
      rw [Condition.listed, Condition.listedAll_eq, oneLine_append, oneLine_append]
      exact ⟨⟨by decide, oneLine_intercalate (by decide) (List.forall_mem_map.mpr ih)⟩, by decide⟩

theorem oneLine_bracketed {items : List String} (each : ∀ item ∈ items, OneLine item) :
    OneLine (bracketed items) := by
  rw [bracketed, oneLine_append, oneLine_append]
  exact ⟨⟨by decide, oneLine_intercalate (by decide) each⟩, by decide⟩

theorem oneLine_tuple {items : List String} (each : ∀ item ∈ items, OneLine item) :
    OneLine (tuple items) := by
  unfold tuple
  split
  · decide
  · rw [oneLine_append, oneLine_append]
    exact ⟨⟨by decide, each _ List.mem_cons_self⟩, by decide⟩
  · rw [oneLine_append, oneLine_append]
    exact ⟨⟨by decide, oneLine_intercalate (by decide) each⟩, by decide⟩

/-! ## How a line begins -/

/-- The first two characters of a line behind its number, if it begins with one. -/
def opening (line : String) : List Char :=
  (line.toList.dropWhile Char.isDigit).take 2

theorem opening_number (n : Nat) (line : String) : opening (toString n ++ line) = opening line := by
  rw [opening, String.toList_append, toList_toString, List.dropWhile_append_of_pos, opening]
  exact digits_are_digits n

/-- If two characters are there, nothing that follows changes how a line begins. -/
theorem opening_append {start : String} (both : (opening start).length = 2) (line : String) :
    opening (start ++ line) = opening start := by
  rw [opening, List.length_take] at both
  have enough : 2 ≤ (start.toList.dropWhile Char.isDigit).length := by omega
  have letter : ¬(start.toList.dropWhile Char.isDigit).isEmpty = true := by
    rw [List.isEmpty_iff_length_eq_zero]
    omega
  rw [opening, String.toList_append, List.dropWhile_append, if_neg letter,
    List.take_append_of_le_length enough, opening]

end Text

/-! ## Names of registered states -/

/-- A state whose name and attributes are spelled like names. -/
structure State.Spelled (state : State) : Prop where
  name : Terminal.name.Spells state.name.toList
  attributes : ∀ entry ∈ state.attributes.entries,
    Terminal.name.Spells entry.1.toList ∧ Terminal.name.Spells entry.2.toList

private theorem mem_insertEntry {κ ν : Type} [DecidableEq κ] {key : κ} {value : ν}
    {entries : List (κ × ν)} {entry : κ × ν} (member : entry ∈ insertEntry key value entries) :
    entry = (key, value) ∨ entry ∈ entries := by
  induction entries with
  | nil => exact Or.inl (List.mem_singleton.mp member)
  | cons first entries ih =>
      rw [insertEntry] at member
      split at member
      · exact (List.mem_cons.mp member).imp_right (List.mem_cons_of_mem first)
      · rcases List.mem_cons.mp member with rfl | member
        · exact Or.inr List.mem_cons_self
        · exact (ih member).imp_right (List.mem_cons_of_mem first)

private theorem spelled_attributes {registry : Registry} {state : Name} {marks : List Attribute}
    (readable : ∀ mark ∈ marks, mark.Readable) {start : OpenAttributes}
    (before : ∀ entry ∈ start.table.entries,
      Terminal.name.Spells entry.1.toList ∧ Terminal.name.Spells entry.2.toList) :
    ∀ entry ∈ (marks.foldl (OpenAttributes.add registry state) start).table.entries,
      Terminal.name.Spells entry.1.toList ∧ Terminal.name.Spells entry.2.toList := by
  induction marks generalizing start with
  | nil => exact before
  | cons mark marks ih =>
      rcases List.forall_mem_cons.mp readable with ⟨first, others⟩
      apply ih others
      cases mark with
      | defaultMark => exact before
      | keyed key token =>
          rcases first with ⟨isKey, _, isToken⟩
          rw [OpenAttributes.add]
          split
          · exact before
          · intro entry member
            rcases mem_insertEntry member with rfl | old
            · exact ⟨isKey, isToken⟩
            · exact before entry old

private theorem spelled_foldl {entries : List StateEntry}
    (readable : ∀ entry ∈ entries, entry.Readable) {start : OpenRegistry}
    (before : ∀ state ∈ start.registry.states, state.Spelled) :
    ∀ state ∈ (entries.foldl OpenRegistry.add start).registry.states, state.Spelled := by
  induction entries generalizing start with
  | nil => exact before
  | cons entry entries ih =>
      rcases List.forall_mem_cons.mp readable with ⟨first, others⟩
      apply ih others
      rw [OpenRegistry.add]
      split
      · exact before
      · intro state member
        rcases List.mem_append.mp member with old | new
        · exact before state old
        · obtain rfl := List.mem_singleton.mp new
          have none_before : ∀ own ∈ ({} : OpenAttributes).table.entries,
              Terminal.name.Spells own.1.toList ∧ Terminal.name.Spells own.2.toList :=
            fun _ empty => absurd empty List.not_mem_nil
          exact ⟨first.name, spelled_attributes first.attributes none_before⟩

/-- What is registered of a block that was read is spelled like names. -/
theorem spelled_checkStates {entries : List StateEntry}
    (readable : ∀ entry ∈ entries, entry.Readable) :
    ∀ state ∈ (checkStates entries).registry.states, state.Spelled :=
  spelled_foldl readable fun _ empty => absurd empty List.not_mem_nil

/-! ## Sentences of a program -/

namespace Program

variable (program : Program)

/-- The name of the program, its size, its space and its states. -/
def heading (name : Option String) (verbose : Bool) : List String :=
  let title := toString program.rank ++ "-dimensional Loaf program" ++
    match name with
    | some name => " " ++ name
    | none => ""
  let size := match program.sizes.mapM id with
    | some sizes => ["Declared size: " ++ crossed sizes]
    | none => []
  let space := "Neighborhood of " ++ toString program.offsets.length ++ " cells, " ++
    program.boundary.description
  [title] ++ size ++ [space] ++ program.registry.description verbose

/-- The line of a rule by number, by the names of its states. -/
def ruleLine (rule : Nat × Clause) : String :=
  ruleText (program.registry.nameOf rule.1) (program.registry.nameOf rule.2.target)
    (rule.2.condition.listed fun test =>
      CountTest.text { test with state := program.registry.nameOf test.state })

/-- The lines of the rules. -/
def ruleLines : List String :=
  program.ruleClauses.map program.ruleLine

/-- All sentences of a program. -/
def sentences (name : Option String) (verbose : Bool) : List String :=
  program.heading name verbose ++ [toString program.ruleClauses.length ++ " rules"] ++
    if verbose then
      ("Offsets: " ++ Text.bracketed (program.offsets.map Vec.tupleText)) :: program.ruleLines
    else []

theorem clauseLine_eq (rule : Nat × Clause) :
    program.clauseLine rule.1 rule.2 = .ok (program.ruleLine rule) := by
  rw [clauseLine, Condition.listing_eq fun _ => rfl]
  rfl

private theorem mapM_clauseLine :
    program.ruleClauses.mapM (fun (state, clause) => program.clauseLine state clause) =
      .ok program.ruleLines :=
  mapM_eq_ok_map fun rule _ => program.clauseLine_eq rule

/-- Every program has a description, and that is its sentences line by line. -/
theorem description_eq (name : Option String) (verbose : Bool) :
    program.description name verbose = .ok ("\n".intercalate (program.sentences name verbose)) := by
  cases verbose with
  | false => rfl
  | true =>
      simp only [description, if_true, mapM_clauseLine]
      rfl

end Program

/-! ## Every sentence has a line of its own -/

section Lines

open Text

/-- How the lines begin that stand before the number of the rules. -/
def headingOpenings : List (List Char) :=
  [['-', 'd'], ['D', 'e'], ['N', 'e'], [' ', 's'], ['N', 'o'], ['S', 't']]

/-- A line that stands before the number of the rules. -/
structure HeadingLine (line : String) : Prop where
  oneLine : OneLine line
  opening : opening line ∈ headingOpenings

namespace HeadingLine

variable {line : String}

theorem append {start : String} (heading : HeadingLine start) (single : OneLine line) :
    HeadingLine (start ++ line) := by
  have both : ∀ chars ∈ headingOpenings, chars.length = 2 := by decide
  constructor
  · exact oneLine_append.mpr ⟨heading.oneLine, single⟩
  · rw [opening_append (both _ heading.opening)]
    exact heading.opening

theorem numbered (heading : HeadingLine line) (n : Nat) : HeadingLine (toString n ++ line) := by
  constructor
  · exact oneLine_append.mpr ⟨oneLine_nat n, heading.oneLine⟩
  · rw [opening_number]
    exact heading.opening

end HeadingLine

theorem State.Spelled.description_line {state : State} (spelled : state.Spelled) :
    HeadingLine state.description := by
  have attributes : ∀ text ∈ state.attributes.entries.map fun entry =>
      entry.1 ++ ("(" ++ (entry.2 ++ ")")), OneLine text := by
    intro text member
    rcases List.mem_map.mp member with ⟨entry, inTable, rfl⟩
    rcases spelled.attributes entry inTable with ⟨isKey, isToken⟩
    simp only [oneLine_append]
    exact ⟨oneLine_of_spells isKey, by decide, oneLine_of_spells isToken, by decide⟩
  simp only [State.description, String.append_assoc]
  apply HeadingLine.append ⟨by decide, by decide⟩
  simp only [oneLine_append]
  refine ⟨oneLine_int _, by decide, oneLine_of_spells spelled.name, by decide, ?_⟩
  split
  · decide
  · exact oneLine_intercalate (by decide) attributes

theorem Registry.description_lines {registry : Registry}
    (spelled : ∀ state ∈ registry.states, state.Spelled) (verbose : Bool) :
    ∀ line ∈ registry.description verbose, HeadingLine line := by
  have names : ∀ name ∈ registry.names, OneLine name := by
    intro name member
    rcases List.mem_map.mp member with ⟨state, inStates, rfl⟩
    exact oneLine_of_spells (spelled state inStates).name
  simp only [description, List.forall_mem_cons]
  constructor
  · rw [String.append_assoc]
    apply HeadingLine.numbered
    exact .append ⟨by decide, by decide⟩ (oneLine_intercalate (by decide) names)
  constructor
  · split
    · next state isDefault =>
      have member : state ∈ registry.states := List.mem_of_find?_eq_some isDefault
      exact .append ⟨by decide, by decide⟩ (oneLine_of_spells (spelled state member).name)
    · exact ⟨by decide, by decide⟩
  · cases verbose with
    | false => exact fun _ empty => absurd empty List.not_mem_nil
    | true =>
        intro line member
        rcases List.mem_map.mp member with ⟨state, inStates, rfl⟩
        exact (spelled state inStates).description_line

namespace Program

variable {program : Program} (spelled : ∀ state ∈ program.registry.states, state.Spelled)

theorem title_line (rank : Nat) (name : Option String) : (∀ given ∈ name, OneLine given) →
    HeadingLine (toString rank ++ "-dimensional Loaf program" ++
      match name with
      | some name => " " ++ name
      | none => "") := by
  intro plain
  rw [String.append_assoc]
  apply HeadingLine.numbered
  apply HeadingLine.append ⟨by decide, by decide⟩
  cases name with
  | none => decide
  | some name => exact oneLine_append.mpr ⟨by decide, plain name rfl⟩

theorem space_line (cells : Nat) (boundary : Boundary Nat) :
    HeadingLine ("Neighborhood of " ++ toString cells ++ " cells, " ++ boundary.description) := by
  rw [String.append_assoc, String.append_assoc]
  apply HeadingLine.append ⟨by decide, by decide⟩
  rw [oneLine_append, oneLine_append]
  refine ⟨oneLine_nat cells, by decide, ?_⟩
  cases boundary with
  | void => decide
  | wrap => decide
  | static state => exact oneLine_append.mpr ⟨by decide, oneLine_nat state⟩

theorem size_line (sizes : List Nat) : HeadingLine ("Declared size: " ++ crossed sizes) := by
  have numbers : ∀ text ∈ sizes.map toString, OneLine text :=
    List.forall_mem_map.mpr fun n _ => oneLine_nat n
  exact .append ⟨by decide, by decide⟩ (oneLine_intercalate (by decide) numbers)

include spelled in
theorem heading_lines {name : Option String} (plain : ∀ given ∈ name, OneLine given)
    (verbose : Bool) : ∀ line ∈ program.heading name verbose, HeadingLine line := by
  simp only [heading, List.forall_mem_append, List.forall_mem_singleton]
  constructor
  · constructor
    · use title_line _ name plain
      split
      · exact List.forall_mem_singleton.mpr (size_line _)
      · exact fun _ empty => absurd empty List.not_mem_nil
    · exact space_line _ _
  · exact Registry.description_lines spelled verbose

include spelled in
theorem oneLine_nameOf (state : Nat) : OneLine (program.registry.nameOf state) := by
  rw [Registry.nameOf_eq]
  cases found : program.registry.states[state]? with
  | none => decide
  | some own => exact oneLine_of_spells (spelled own (List.mem_of_getElem? found)).name

include spelled in
/-- The line of a rule begins like a rule. -/
theorem ruleLine_line (rule : Nat × Clause) :
    OneLine (program.ruleLine rule) ∧ "from ".toList <+: (program.ruleLine rule).toList := by
  have names := oneLine_nameOf spelled
  have tests (test : CountTest Nat) :
      OneLine (CountTest.text { test with state := program.registry.nameOf test.state }) :=
    oneLine_test (names test.state)
  constructor
  · simp only [ruleLine, ruleText, String.append_assoc, oneLine_append]
    exact ⟨by decide, names _, by decide, names _, by decide, oneLine_listed tests _⟩
  · simp only [ruleLine, ruleText, String.append_assoc]
    rw [String.toList_append]
    exact List.prefix_append _ _

include spelled in
theorem sentences_oneLine {name : Option String} (plain : ∀ given ∈ name, OneLine given)
    (verbose : Bool) : ∀ line ∈ program.sentences name verbose, OneLine line := by
  simp only [sentences, List.forall_mem_append, List.forall_mem_singleton]
  constructor
  · constructor
    · exact fun line member => (heading_lines spelled plain verbose line member).oneLine
    · rw [oneLine_append]
      exact ⟨oneLine_nat _, by decide⟩
  · cases verbose with
    | false => exact fun _ empty => absurd empty List.not_mem_nil
    | true =>
        rw [if_pos rfl, List.forall_mem_cons, oneLine_append]
        constructor
        · use by decide
          apply oneLine_bracketed
          intro text member
          rcases List.mem_map.mp member with ⟨offset, _, rfl⟩
          exact oneLine_tuple (List.forall_mem_map.mpr fun n _ => oneLine_int n)
        · intro line member
          rcases List.mem_map.mp member with ⟨rule, _, rfl⟩
          exact (ruleLine_line spelled rule).1

include spelled in
/-- The lines of a description are its sentences. -/
theorem lines_sentences {name : Option String} (plain : ∀ given ∈ name, OneLine given)
    (verbose : Bool) :
    lines ("\n".intercalate (program.sentences name verbose)) = program.sentences name verbose :=
  lines_intercalate (by simp [sentences]) (sentences_oneLine spelled plain verbose)

/-! ## Telling lines apart -/

theorem opening_of_from {line : String} (begins : "from ".toList <+: line.toList) :
    opening line = ['f', 'r'] := by
  rcases begins with ⟨rest, chars⟩
  have word : "from ".toList = 'f' :: 'r' :: ['o', 'm', ' '] := rfl
  rw [opening, ← chars, word]
  rfl

theorem opening_rules (n : Nat) : opening (toString n ++ " rules") = [' ', 'r'] := by
  rw [opening_number]
  decide

theorem opening_offsets (text : String) : opening ("Offsets: " ++ text) = ['O', 'f'] :=
  opening_append (by decide) text

include spelled in
/-- One line gives the number of the rules, and it gives no other number. -/
theorem rules_mem_sentences_iff {name : Option String} (plain : ∀ given ∈ name, OneLine given)
    (verbose : Bool) (n : Nat) :
    toString n ++ " rules" ∈ program.sentences name verbose ↔ n = program.ruleClauses.length := by
  have number := opening_rules n
  constructor
  · intro member
    rcases List.mem_append.mp member with before | detail
    · rcases List.mem_append.mp before with heading | own
      · have other := (heading_lines spelled plain verbose _ heading).opening
        rw [number] at other
        exact absurd other (by decide)
      · have same := congrArg String.toList (List.mem_singleton.mp own)
        rw [String.toList_append, String.toList_append] at same
        exact toString_injective (String.toList_inj.mp (List.append_cancel_right same))
    · cases verbose with
      | false => exact absurd detail List.not_mem_nil
      | true =>
          rw [if_pos rfl] at detail
          rcases List.mem_cons.mp detail with offsets | line
          · rw [offsets, opening_offsets] at number
            exact absurd number (by decide)
          · rcases List.mem_map.mp line with ⟨rule, _, same⟩
            rw [← same, opening_of_from (ruleLine_line spelled rule).2] at number
            exact absurd number (by decide)
  · rintro rfl
    exact List.mem_append_left _ (List.mem_append_right _ (List.mem_singleton.mpr rfl))

end Program

/-- Whether a line begins like a rule. -/
def Text.beginsRule (line : String) : Bool :=
  "from ".toList.isPrefixOf line.toList

/-- The lines of a text that begin like rules. -/
def Text.fromLines (text : String) : List String :=
  (lines text).filter beginsRule

namespace Program

variable {program : Program} (spelled : ∀ state ∈ program.registry.states, state.Spelled)

include spelled in
/-- The lines of a description that begin like rules are those of the rules. -/
theorem fromLines_sentences {name : Option String} (plain : ∀ given ∈ name, OneLine given) :
    fromLines ("\n".intercalate (program.sentences name true)) = program.ruleLines := by
  have others (line : String) (apart : opening line ≠ ['f', 'r']) : ¬beginsRule line = true :=
    fun begins => apart (opening_of_from (List.isPrefixOf_iff_prefix.mp begins))
  have heading : ∀ line ∈ program.heading name true, ¬beginsRule line = true := by
    intro line member
    apply others
    intro begins
    have opening := (heading_lines spelled plain true line member).opening
    rw [begins] at opening
    exact absurd opening (by decide)
  have number : ¬beginsRule (toString program.ruleClauses.length ++ " rules") = true := by
    apply others
    rw [opening_rules]
    decide
  have offsets : ¬beginsRule
      ("Offsets: " ++ Text.bracketed (program.offsets.map Vec.tupleText)) = true := by
    apply others
    rw [opening_offsets]
    decide
  have rules : ∀ line ∈ program.ruleLines, beginsRule line = true := by
    intro line member
    rcases List.mem_map.mp member with ⟨rule, _, rfl⟩
    exact List.isPrefixOf_iff_prefix.mpr (ruleLine_line spelled rule).2
  rw [fromLines, lines_sentences spelled plain, sentences, List.filter_append, List.filter_append,
    List.filter_eq_nil_iff.mpr heading, List.filter_cons_of_neg number, if_pos rfl,
    List.filter_cons_of_neg offsets, List.filter_eq_self.mpr rules]
  rfl

end Program

end Lines

end Cellular
