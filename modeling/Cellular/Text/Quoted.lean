import Cellular.Text.Printable

/-!
# Quoted texts

A text inside a list or a tuple is written between quotes: single quotes,
unless the text holds a single quote and no double quote. The delimiter and the
backslash are escaped, the three common control characters have short escapes,
and every other unprintable character is written by its code point in two,
four or eight hexadecimal digits.
-/

namespace Cellular.Text

/-- The quote around a text: single, unless only a double one avoids escapes. -/
def delimiter (text : List Char) : Char :=
  if text.contains '\x27' && !text.contains '\x22' then '\x22' else '\x27'

/-- A code point in hexadecimal, filled up with zeros to the given width. -/
def hexadecimal (width code : Nat) : List Char :=
  let digits := Nat.toDigits 16 code
  List.replicate (width - digits.length) '0' ++ digits

/-- One character between the given quotes. -/
def escaped (quote c : Char) : List Char :=
  if c = quote || c = '\x5c' then ['\x5c', c]
  else if c = '\n' then ['\x5c', 'n']
  else if c = '\r' then ['\x5c', 'r']
  else if c = '\t' then ['\x5c', 't']
  else if isPrintable c then [c]
  else if c.toNat < 0x100 then '\x5c' :: 'x' :: hexadecimal 2 c.toNat
  else if c.toNat < 0x10000 then '\x5c' :: 'u' :: hexadecimal 4 c.toNat
  else '\x5c' :: 'U' :: hexadecimal 8 c.toNat

/-- The text between quotes. -/
def quoted (text : String) : String :=
  let quote := delimiter text.toList
  String.ofList (quote :: (text.toList.flatMap (escaped quote) ++ [quote]))

end Cellular.Text
