import Cellular.Source.Reader
import Cellular.Text.Digits

/-!
# Literals

A text is read as a program first, and then its integers become numbers, as far as they
are not too long for it. So an integer that is too long does not matter in a text that is
no program; and in a program it is not reported as a failure to read, with a place in the
text, but fails whatever was to be done with the program.
-/

namespace Cellular

/-- The number of digits of a token, zeros in front included. -/
def Token.digits (token : Token) : Nat :=
  token.text.toList.countP Char.isDigit

/-- Whether a token is an integer with more digits than can be read. -/
def Token.isOverlong (token : Token) : Bool :=
  token.terminal = .integer && greatestDigits < token.digits

/-- The tokens from a place in the program on, up to the first that does not fit. -/
def tokensFrom (place : Place) (cursor : Cursor) : List Token :=
  match skipped : cursor.skip.rest with
  | [] => []
  | c :: rest => match found : nextWord place.wanted (c :: rest) with
    | none => []
    | some word =>
      let start := cursor.skip.place
      let token : Token := ⟨word.terminal, String.ofList word.chars, start⟩
      match place.step token with
      | none => []
      | some next =>
        have _ := rest_lt_of_nextWord skipped found
        token :: tokensFrom next ⟨start.advance word.chars, word.rest⟩
termination_by cursor.rest.length

/-- The tokens of a source text, up to the first that does not fit. -/
def sourceTokens (source : String) : List Token :=
  tokensFrom (.between []) ⟨.start, source.toList⟩

/-- The first integer that is too long, in a text that is a program. -/
def overlongLiteral? (source : String) : Option Token :=
  match readProgram source with
  | .ok _ => (sourceTokens source).find? Token.isOverlong
  | .error _ => none

/-- Why something that is done with a source text fails: an integer in it is too long, or
there is some other fault. -/
inductive LiteralFault (ε : Type) where
  | overlong (token : Token)
  | fault (fault : ε)

/-- Does something with a source text, if none of its integers is too long. -/
def withLiterals {ε α : Type} (source : String) (result : Except ε α) :
    Except (LiteralFault ε) α :=
  match overlongLiteral? source with
  | some token => .error (.overlong token)
  | none => result.mapError .fault

/-- Reads a source text with its integers. -/
def readSource (source : String) : Except (LiteralFault ReadFault) (List Declaration) :=
  withLiterals source (readProgram source)

end Cellular
