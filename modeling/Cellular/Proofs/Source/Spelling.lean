import Cellular.Condition.Basic
import Cellular.Source.Lexer

/-!
# Spellings

A word is the spelling of its terminal. Reading a word gives such a spelling; conversely a
spelling that is not continued by what follows is read as a whole. What continues a word
depends on the word: letters and digits continue a name or a keyword, digits an integer,
an equality sign a comparison, and a minus sign the sign that stands for plus.
-/

namespace Cellular

/-! ## What spells a terminal -/

/-- The characters that spell a word of a terminal. -/
def Terminal.Spells : Terminal → List Char → Prop
  | dimensionality, chars =>
    ∃ digit, (digit = '1' ∨ digit = '2' ∨ digit = '3') ∧ chars = [digit, 'D']
  | name, chars =>
    ∃ first rest, chars = first :: rest ∧ isNameStart first = true ∧
      ∀ c ∈ rest, isNamePart c = true
  | integer, chars =>
    ∃ digits, (chars = digits ∨ chars = '-' :: digits) ∧ digits ≠ [] ∧
      ∀ c ∈ digits, c.isDigit = true
  | comparison, chars => ∃ comparison : Comparison, chars = comparison.symbol.toList
  | keyword k, chars => chars = k.text.toList
  | mark m, chars => chars = m.text.toList

/-- A token whose text spells its terminal. -/
def Token.Spelled (token : Token) : Prop :=
  token.terminal.Spells token.text.toList

/-! ## Reading a word gives a spelling -/

private theorem forall_mem_takeWhile (p : Char → Bool) (chars : List Char) :
    ∀ c ∈ chars.takeWhile p, p c = true :=
  List.all_eq_true.mp List.all_takeWhile

private theorem take_length_takeWhile (p : Char → Bool) (chars : List Char) :
    chars.take (chars.takeWhile p).length = chars.takeWhile p :=
  (List.prefix_iff_eq_take.mp (List.takeWhile_prefix p)).symm

private theorem takeWhile_ne_nil {chars : List Char} (positive : 0 < digitsLength chars) :
    chars.takeWhile Char.isDigit ≠ [] :=
  List.ne_nil_of_length_pos positive

private theorem spells_name {chars : List Char} (positive : 0 < nameLength chars) :
    Terminal.name.Spells (chars.take (nameLength chars)) := by
  rcases chars with _ | ⟨c, rest⟩
  · exact absurd positive (Nat.lt_irrefl 0)
  rw [nameLength] at positive ⊢
  by_cases letter : isNameStart c = true
  · rw [if_pos letter, List.take_succ_cons, take_length_takeWhile]
    exact ⟨c, _, rfl, letter, forall_mem_takeWhile isNamePart rest⟩
  · rw [if_neg letter] at positive
    exact absurd positive (Nat.lt_irrefl 0)

private theorem spells_integer {chars : List Char} (positive : 0 < integerLength chars) :
    Terminal.integer.Spells (chars.take (integerLength chars)) := by
  unfold integerLength at positive ⊢
  split at positive
  · rename_i rest
    by_cases none : digitsLength rest = 0
    · rw [if_pos none] at positive
      exact absurd positive (Nat.lt_irrefl 0)
    · rw [if_neg none, List.take_succ_cons, digitsLength, take_length_takeWhile]
      exact ⟨_, Or.inr rfl, takeWhile_ne_nil (Nat.pos_of_ne_zero none),
        forall_mem_takeWhile Char.isDigit rest⟩
  · rw [digitsLength, take_length_takeWhile]
    exact ⟨_, Or.inl rfl, takeWhile_ne_nil positive, forall_mem_takeWhile Char.isDigit chars⟩

private theorem spells_comparison {chars : List Char} (positive : 0 < comparisonLength chars) :
    Terminal.comparison.Spells (chars.take (comparisonLength chars)) := by
  unfold comparisonLength at positive ⊢
  split
  · exact ⟨.equal, rfl⟩
  · exact ⟨.unequal, rfl⟩
  · exact ⟨.atMost, rfl⟩
  · exact ⟨.atLeast, rfl⟩
  · exact ⟨.below, rfl⟩
  · exact ⟨.above, rfl⟩
  · simp_all

private theorem spells_dimensionality {chars : List Char}
    (positive : 0 < dimensionalityLength chars) :
    Terminal.dimensionality.Spells (chars.take (dimensionalityLength chars)) := by
  unfold dimensionalityLength at positive ⊢
  split at positive
  · rename_i digit rest
    split at positive
    · rename_i known
      rw [if_pos known]
      simp only [Bool.or_eq_true, decide_eq_true_eq, or_assoc] at known
      exact ⟨digit, known, rfl⟩
    · exact absurd positive (Nat.lt_irrefl 0)
  · exact absurd positive (Nat.lt_irrefl 0)

theorem prefix_of_spellingLength_pos {spelling : String} {chars : List Char}
    (positive : 0 < spellingLength spelling chars) : spelling.toList <+: chars := by
  rw [spellingLength] at positive
  split at positive
  · rename_i found
    exact List.isPrefixOf_iff_prefix.mp found
  · exact absurd positive (Nat.lt_irrefl 0)

private theorem take_spellingLength {spelling : String} {chars : List Char}
    (positive : 0 < spellingLength spelling chars) :
    chars.take (spellingLength spelling chars) = spelling.toList := by
  have found := prefix_of_spellingLength_pos positive
  rw [spellingLength, if_pos (List.isPrefixOf_iff_prefix.mpr found), ← String.length_toList]
  exact (List.prefix_iff_eq_take.mp found).symm

/-- What is found at the start of a text is spelled. -/
theorem Terminal.spells_take {terminal : Terminal} {chars : List Char}
    (positive : 0 < terminal.lengthAt chars) :
    terminal.Spells (chars.take (terminal.lengthAt chars)) := by
  cases terminal with
  | dimensionality => exact spells_dimensionality positive
  | name => exact spells_name positive
  | integer => exact spells_integer positive
  | comparison => exact spells_comparison positive
  | keyword k => exact take_spellingLength positive
  | mark m => exact take_spellingLength positive

/-! ## Characters that no spelling has -/

theorem Terminal.Spells.notMem_of_name {chars : List Char} (spelled : name.Spells chars) {c : Char}
    (notStart : isNameStart c = false) (notPart : isNamePart c = false) : c ∉ chars := by
  rcases spelled with ⟨first, rest, rfl, letter, others⟩
  intro member
  rcases List.mem_cons.mp member with rfl | member
  · exact Bool.false_ne_true (notStart.symm.trans letter)
  · exact Bool.false_ne_true (notPart.symm.trans (others c member))

theorem Terminal.Spells.notMem_of_integer {chars : List Char} (spelled : integer.Spells chars)
    {c : Char} (notSign : c ≠ '-') (notDigit : c.isDigit = false) : c ∉ chars := by
  have foreign : ∀ digits : List Char, (∀ d ∈ digits, d.isDigit = true) → c ∉ digits :=
    fun digits inside member => Bool.false_ne_true (notDigit.symm.trans (inside c member))
  rcases spelled with ⟨digits, rfl | rfl, _, inside⟩
  · exact foreign chars inside
  · exact List.not_mem_cons_of_ne_of_not_mem notSign (foreign digits inside)

/-! ## A spelling that stops is found as a whole -/

/-- Whether a character that follows a word of a terminal could be taken for a part of
it. -/
def Terminal.continuedBy : Terminal → Char → Bool
  | name, c | keyword _, c => isNamePart c
  | integer, c => c.isDigit
  | comparison, c => c = '='
  | mark .plus, c => c = '-'
  | dimensionality, _ | mark _, _ => false

/-- What follows a word of a terminal does not continue it. -/
def Terminal.Stops (terminal : Terminal) (rest : List Char) : Prop :=
  ∀ c ∈ rest.head?, terminal.continuedBy c = false

private theorem takeWhile_append_stop {p : Char → Bool} {chars rest : List Char}
    (inside : ∀ c ∈ chars, p c = true) (stops : ∀ c ∈ rest.head?, p c = false) :
    (chars ++ rest).takeWhile p = chars := by
  rw [List.takeWhile_append_of_pos inside]
  rcases rest with _ | ⟨c, rest⟩
  · exact List.append_nil chars
  · rw [List.takeWhile_cons_of_neg (by simp [stops c rfl]), List.append_nil]

private theorem digitsLength_append {digits rest : List Char}
    (inside : ∀ c ∈ digits, c.isDigit = true) (stops : Terminal.integer.Stops rest) :
    digitsLength (digits ++ rest) = digits.length := by
  rw [digitsLength, takeWhile_append_stop inside stops]

private theorem nameLength_append {chars rest : List Char} (spelled : Terminal.name.Spells chars)
    (stops : Terminal.name.Stops rest) : nameLength (chars ++ rest) = chars.length := by
  rcases spelled with ⟨first, others, rfl, letter, parts⟩
  rw [List.cons_append, nameLength, if_pos letter, takeWhile_append_stop parts stops]
  rfl

private theorem integerLength_append {chars rest : List Char}
    (spelled : Terminal.integer.Spells chars) (stops : Terminal.integer.Stops rest) :
    integerLength (chars ++ rest) = chars.length := by
  rcases spelled with ⟨digits, rfl | rfl, nonempty, inside⟩
  · rcases chars with _ | ⟨d, chars⟩
    · exact absurd rfl nonempty
    have digit : d.isDigit = true := inside d List.mem_cons_self
    rw [← digitsLength_append inside stops, List.cons_append, integerLength]
    intro others signed
    rw [(List.cons.inj signed).1] at digit
    exact absurd digit (by decide)
  · have some_digit : digits.length ≠ 0 := by simpa using nonempty
    rw [List.cons_append, integerLength, digitsLength_append inside stops, if_neg some_digit]
    rfl

private theorem comparisonLength_append {chars rest : List Char}
    (spelled : Terminal.comparison.Spells chars) (stops : Terminal.comparison.Stops rest) :
    comparisonLength (chars ++ rest) = chars.length := by
  rcases spelled with ⟨comparison, rfl⟩
  cases comparison with
  | equal | unequal | atMost | atLeast => rfl
  | below | above =>
      rcases rest with _ | ⟨c, rest⟩
      · rfl
      have other : c ≠ '=' := by simpa [Terminal.continuedBy] using stops c rfl
      simp [Comparison.symbol, comparisonLength, other]

private theorem dimensionalityLength_append {chars rest : List Char}
    (spelled : Terminal.dimensionality.Spells chars) :
    dimensionalityLength (chars ++ rest) = chars.length := by
  rcases spelled with ⟨digit, rfl | rfl | rfl, rfl⟩ <;> rfl

theorem spellingLength_append (spelling : String) (rest : List Char) :
    spellingLength spelling (spelling.toList ++ rest) = spelling.toList.length := by
  rw [spellingLength, if_pos (List.isPrefixOf_iff_prefix.mpr (List.prefix_append _ rest)),
    String.length_toList]

/-- A spelling that stops has its own length at the start of a text. -/
theorem Terminal.lengthAt_append {terminal : Terminal} {chars rest : List Char}
    (spelled : terminal.Spells chars) (stops : terminal.Stops rest) :
    terminal.lengthAt (chars ++ rest) = chars.length := by
  cases terminal with
  | dimensionality => exact dimensionalityLength_append spelled
  | name => exact nameLength_append spelled stops
  | integer => exact integerLength_append spelled stops
  | comparison => exact comparisonLength_append spelled stops
  | keyword k =>
      obtain rfl := spelled
      exact spellingLength_append k.text rest
  | mark m =>
      obtain rfl := spelled
      exact spellingLength_append m.text rest

theorem Terminal.Spells.ne_nil {terminal : Terminal} {chars : List Char}
    (spelled : terminal.Spells chars) : chars ≠ [] := by
  cases terminal with
  | dimensionality =>
      rcases spelled with ⟨digit, _, rfl⟩
      exact List.cons_ne_nil _ _
  | name =>
      rcases spelled with ⟨first, rest, rfl, _⟩
      exact List.cons_ne_nil _ _
  | integer =>
      rcases spelled with ⟨digits, rfl | rfl, nonempty, _⟩
      · exact nonempty
      · exact List.cons_ne_nil _ _
  | comparison =>
      rcases spelled with ⟨comparison, rfl⟩
      cases comparison <;> exact List.cons_ne_nil _ _
  | keyword k =>
      obtain rfl := spelled
      cases k <;> exact List.cons_ne_nil _ _
  | mark m =>
      obtain rfl := spelled
      cases m <;> exact List.cons_ne_nil _ _

/-- A keyword is spelled like a name. -/
theorem Keyword.spells_name (k : Keyword) : Terminal.name.Spells k.text.toList := by
  cases k <;> exact ⟨_, _, rfl, rfl, List.all_eq_true.mp rfl⟩

/-! ## Texts that continue no word -/

/-- A text that continues no word before it. -/
def Breaks (rest : List Char) : Prop :=
  ∀ terminal : Terminal, terminal.Stops rest

theorem breaks_cons {c : Char} (other : isNamePart c = false) (noEqual : c ≠ '=')
    (noMinus : c ≠ '-') (rest : List Char) : Breaks (c :: rest) := by
  rintro terminal d member
  obtain rfl : c = d := Option.some.inj member
  have noDigit : c.isDigit = false := by
    rw [isNamePart, Char.isAlphanum, Bool.or_eq_false_iff, Bool.or_eq_false_iff] at other
    exact other.1.2
  cases terminal with
  | mark m => cases m <;> simp [Terminal.continuedBy, noMinus]
  | _ => simp [Terminal.continuedBy, other, noDigit, noEqual]

theorem breaks_blank {c : Char} (blank : isBlank c = true) (rest : List Char) :
    Breaks (c :: rest) := by
  simp only [isBlank, Bool.or_eq_true, decide_eq_true_eq] at blank
  rcases blank with (((rfl | rfl) | rfl) | rfl) | rfl <;>
    exact breaks_cons (by decide) (by decide) (by decide) rest

end Cellular
