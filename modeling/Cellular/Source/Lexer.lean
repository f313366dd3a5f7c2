import Cellular.Source.Token

/-!
# Words of a source text

Blanks and comments separate words and are skipped; a comment runs from `#` or `//`
to the end of its line. What counts as a word depends on the terminals that the
reader looks for. Where a name may stand, the longest run of letters, digits and
underscores is one word, which is a keyword only if it is exactly a keyword that is
looked for. Where no name may stand, a keyword is found as soon as its letters are
there, whatever follows them.
-/

namespace Cellular

/-! ## Characters -/

/-- Blanks: space, tabulator, form feed, carriage return and newline. -/
def isBlank (c : Char) : Bool :=
  c = ' ' || c = '\t' || c = '\x0c' || c = '\r' || c = '\n'

/-- The first character of a name. -/
def isNameStart (c : Char) : Bool :=
  c.isAlpha || c = '_'

/-- The further characters of a name. -/
def isNamePart (c : Char) : Bool :=
  c.isAlphanum || c = '_'

/-! ## Layout -/

/-- What is left of a text, and where it begins. -/
structure Cursor where
  place : Position
  rest : List Char

/-- Skips blanks and comments from a place on. Inside a comment everything up to
the newline belongs to it, and the newline is a blank. -/
def skipLayout (inComment : Bool) (place : Position) : List Char → Cursor
  | [] => ⟨place, []⟩
  | c :: rest =>
    if inComment then skipLayout (c != '\n') (place.next c) rest
    else if isBlank c then skipLayout false (place.next c) rest
    else if c = '#' || (c = '/' && rest.head? = some '/') then
      skipLayout true (place.next c) rest
    else ⟨place, c :: rest⟩

/-- The cursor at the next word, or at the end of the text. -/
def Cursor.skip (cursor : Cursor) : Cursor :=
  skipLayout false cursor.place cursor.rest

theorem length_skipLayout_le (inComment : Bool) (place : Position) (chars : List Char) :
    (skipLayout inComment place chars).rest.length ≤ chars.length := by
  induction chars generalizing inComment place with
  | nil => simp [skipLayout]
  | cons c rest ih =>
    rw [skipLayout]
    split
    · exact Nat.le_succ_of_le (ih ..)
    · split
      · exact Nat.le_succ_of_le (ih ..)
      · split
        · exact Nat.le_succ_of_le (ih ..)
        · exact Nat.le_refl _

/-! ## Words -/

/-- The length of a spelling at the start of a text; zero if it is not there. -/
def spellingLength (spelling : String) (chars : List Char) : Nat :=
  if spelling.toList.isPrefixOf chars then spelling.length else 0

/-- The length of a name at the start of a text. -/
def nameLength : List Char → Nat
  | [] => 0
  | c :: rest => if isNameStart c then (rest.takeWhile isNamePart).length + 1 else 0

/-- The length of a run of digits at the start of a text. -/
def digitsLength (chars : List Char) : Nat :=
  (chars.takeWhile Char.isDigit).length

/-- The length of an integer at the start of a text: digits after an optional minus
sign. -/
def integerLength : List Char → Nat
  | '-' :: rest => if digitsLength rest = 0 then 0 else digitsLength rest + 1
  | chars => digitsLength chars

/-- The length of a comparison at the start of a text. -/
def comparisonLength : List Char → Nat
  | '=' :: '=' :: _ | '!' :: '=' :: _ | '<' :: '=' :: _ | '>' :: '=' :: _ => 2
  | '<' :: _ | '>' :: _ => 1
  | _ => 0

/-- The length of a dimensionality at the start of a text: one digit and a `D`. -/
def dimensionalityLength : List Char → Nat
  | digit :: 'D' :: _ => if digit = '1' || digit = '2' || digit = '3' then 2 else 0
  | _ => 0

/-- The length of the word of a terminal at the start of a text; zero if there is
none. -/
def Terminal.lengthAt (terminal : Terminal) (chars : List Char) : Nat :=
  match terminal with
  | dimensionality => dimensionalityLength chars
  | name => nameLength chars
  | integer => integerLength chars
  | comparison => comparisonLength chars
  | keyword k => spellingLength k.text chars
  | mark m => spellingLength m.text chars

/-- The terminals that a text is tried against: where a name is looked for, keywords
are found as names. -/
def searched (wanted : List Terminal) : List Terminal :=
  if wanted.contains .name then
    wanted.filter fun terminal => !(terminal matches .keyword _)
  else wanted

/-- The class of a name: a keyword that is looked for, or just a name. -/
def classify (wanted : List Terminal) (text : String) : Terminal :=
  let keyword? := wanted.find? fun terminal =>
    match terminal with
    | .keyword word => word.text = text
    | _ => false
  keyword?.getD .name

/-- A word at the start of a text: its class, its characters, and what follows. -/
structure Word where
  terminal : Terminal
  chars : List Char
  rest : List Char

/-- The next word among the terminals that are looked for. -/
def nextWord (wanted : List Terminal) (chars : List Char) : Option Word :=
  let candidates := searched wanted
  let found := Terminal.all.find? fun terminal =>
    candidates.contains terminal && decide (0 < terminal.lengthAt chars)
  found.map fun terminal =>
    let word := chars.take (terminal.lengthAt chars)
    { terminal := if terminal = .name then classify wanted (String.ofList word) else terminal
      chars := word
      rest := chars.drop (terminal.lengthAt chars) }

/-! ## Small laws -/

theorem nextWord_append {wanted : List Terminal} {chars : List Char} {word : Word}
    (found : nextWord wanted chars = some word) : word.chars ++ word.rest = chars := by
  simp only [nextWord, Option.map_eq_some_iff] at found
  obtain ⟨terminal, _, rfl⟩ := found
  exact List.take_append_drop ..

theorem nextWord_length {wanted : List Terminal} {chars : List Char} {word : Word}
    (found : nextWord wanted chars = some word) (nonempty : chars ≠ []) :
    word.rest.length < chars.length := by
  simp only [nextWord, Option.map_eq_some_iff] at found
  obtain ⟨terminal, isFound, rfl⟩ := found
  have positive : 0 < terminal.lengthAt chars := by
    have := List.find?_some isFound
    simp only [Bool.and_eq_true, decide_eq_true_eq] at this
    exact this.2
  have := List.length_pos_iff.mpr nonempty
  simp only [List.length_drop]
  omega

end Cellular
