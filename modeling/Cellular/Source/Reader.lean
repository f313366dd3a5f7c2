import Cellular.Source.Lexer
import Cellular.Source.Place

/-!
# Reading source programs

Reading goes from place to place, one word at a time. It fails at the first word
that does not fit: at a character with which no word begins, at a word that nobody
looks for, or at the end of the text when the program is not finished. The report
names the place of the failure and the terminals that were looked for.
-/

namespace Cellular

/-- What was found instead of a fitting word. -/
inductive Unexpected where
  | character (c : Char)
  | word (text : String) (wanted : List Terminal)
  | endOfText (wanted : List Terminal)
deriving DecidableEq, Repr

/-- A failure to read a source text. The end of a text is reported at the last word
before it. -/
structure ReadFault where
  unexpected : Unexpected
  place : Position
deriving DecidableEq, Repr

/-- The labels of a set of terminals, in the order of their characters. -/
def labels (wanted : List Terminal) : String :=
  ", ".intercalate ((wanted.map Terminal.label).mergeSort fun a b => decide (a ≤ b))

/-- The report of what was found. -/
def Unexpected.message : Unexpected → String
  | character c => "Unexpected character '" ++ String.singleton c ++ "'"
  | word text wanted => "Unexpected '" ++ text ++ "', expected one of " ++ labels wanted
  | endOfText wanted => "Unexpected end of input, expected one of " ++ labels wanted

/-- Why no word that is looked for begins at a character: the word that begins there
is not looked for, or no word begins there. -/
def unexpectedAt (wanted : List Terminal) (c : Char) (rest : List Char) : Unexpected :=
  match nextWord Terminal.all (c :: rest) with
  | some word => .word (String.ofList word.chars) (searched wanted)
  | none => .character c

/-- After a word less of the text is left. -/
theorem rest_lt_of_nextWord {wanted : List Terminal} {cursor : Cursor} {c : Char}
    {rest : List Char} {word : Word} (skipped : cursor.skip.rest = c :: rest)
    (found : nextWord wanted (c :: rest) = some word) :
    word.rest.length < cursor.rest.length := by
  have shorter := nextWord_length found (by simp)
  have kept : cursor.skip.rest.length ≤ cursor.rest.length := length_skipLayout_le ..
  rw [skipped] at kept
  exact Nat.lt_of_lt_of_le shorter kept

/-- Reads on from a place in the program and a place in the text. The last word that
was read, if any, began at `last`. -/
def readFrom (place : Place) (last : Position) (cursor : Cursor) :
    Except ReadFault (List Declaration) :=
  match skipped : cursor.skip.rest with
  | [] => match place.finish? with
    | some program => .ok program
    | none => .error ⟨.endOfText place.wanted, last⟩
  | c :: rest => match found : nextWord place.wanted (c :: rest) with
    | none => .error ⟨unexpectedAt place.wanted c rest, cursor.skip.place⟩
    | some word =>
      let start := cursor.skip.place
      let token : Token := ⟨word.terminal, String.ofList word.chars, start⟩
      match place.step token with
      | none => .error ⟨.word token.text place.fitting, start⟩
      | some next =>
        have _ := rest_lt_of_nextWord skipped found
        readFrom next start ⟨start.advance word.chars, word.rest⟩
termination_by cursor.rest.length

/-- Reads a source text. -/
def readProgram (source : String) : Except ReadFault (List Declaration) :=
  readFrom (.between []) .start ⟨.start, source.toList⟩

end Cellular
