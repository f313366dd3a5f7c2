import Cellular.Source.Position

/-!
# Terminals and tokens

The words of the language fall into classes, the terminals: names, integers,
comparisons, dimensionalities, keywords, and marks. A keyword is a name that means
something of its own where the reader looks for it, and an ordinary name elsewhere.
-/

namespace Cellular

/-- The keywords. -/
inductive Keyword where
  | neighborhood
  | defaultWord
  | moore
  | vonNeumann
  | void
  | wrap
  | static
  | within
  | fromWord
  | toWord
deriving DecidableEq, Repr

/-- The spelling of a keyword. -/
def Keyword.text : Keyword → String
  | neighborhood => "neighborhood"
  | defaultWord => "default"
  | moore => "MOORE"
  | vonNeumann => "VON_NEUMANN"
  | void => "void"
  | wrap => "wrap"
  | static => "static"
  | within => "within"
  | fromWord => "from"
  | toWord => "to"

/-- The marks: brackets, operators and separators. -/
inductive Mark where
  | assign
  | colons
  | plusMinus
  | star
  | openBrace
  | closeBrace
  | openParen
  | closeParen
  | comma
  | equal
  | plus
  | minus
  | bang
  | ampersand
  | bar
deriving DecidableEq, Repr

/-- The spelling of a mark. -/
def Mark.text : Mark → String
  | assign => ":="
  | colons => "::"
  | plusMinus => "+-"
  | star => "*"
  | openBrace => "\x7b"
  | closeBrace => "\x7d"
  | openParen => "("
  | closeParen => ")"
  | comma => ","
  | equal => "="
  | plus => "+"
  | minus => "-"
  | bang => "!"
  | ampersand => "&"
  | bar => "|"

/-- The classes of words. -/
inductive Terminal where
  | dimensionality
  | name
  | integer
  | comparison
  | keyword (word : Keyword)
  | mark (mark : Mark)
deriving DecidableEq, Repr

namespace Terminal

/-- The label of a terminal in reports. -/
def label : Terminal → String
  | dimensionality => "DIMENSIONALITY"
  | name => "NAME"
  | integer => "INT"
  | comparison => "CMP_OP"
  | keyword .neighborhood => "NEIGHBORHOOD"
  | keyword .defaultWord => "DEFAULT"
  | keyword .moore => "MOORE"
  | keyword .vonNeumann => "VON_NEUMANN"
  | keyword .void => "VOID"
  | keyword .wrap => "WRAP"
  | keyword .static => "STATIC"
  | keyword .within => "WITHIN"
  | keyword .fromWord => "FROM"
  | keyword .toWord => "TO"
  | mark .assign => "__ANON_0"
  | mark .colons => "__ANON_1"
  | mark .plusMinus => "__ANON_2"
  | mark .star => "ALL_AXES"
  | mark .openBrace => "LBRACE"
  | mark .closeBrace => "RBRACE"
  | mark .openParen => "LPAR"
  | mark .closeParen => "RPAR"
  | mark .comma => "COMMA"
  | mark .equal => "EQUAL"
  | mark .plus => "PLUS"
  | mark .minus => "MINUS"
  | mark .bang => "BANG"
  | mark .ampersand => "AMPERSAND"
  | mark .bar => "VBAR"

/-- All terminals in the order in which a word is tried against them: those that
can be spelled in many ways come first, then longer spellings before shorter ones. -/
def all : List Terminal :=
  [dimensionality, name, integer,
    keyword .neighborhood, keyword .vonNeumann, keyword .defaultWord, keyword .static,
    keyword .within, keyword .moore, keyword .fromWord, keyword .void, keyword .wrap,
    comparison, keyword .toWord, mark .assign, mark .colons, mark .plusMinus,
    mark .star, mark .openBrace, mark .closeBrace, mark .openParen, mark .closeParen,
    mark .comma, mark .equal, mark .plus, mark .minus, mark .bang, mark .ampersand,
    mark .bar]

end Terminal

/-- A word of a source text with its class and the place of its first character. -/
structure Token where
  terminal : Terminal
  text : String
  place : Position
deriving DecidableEq, Repr

namespace Token

/-- The token as a name. -/
def toName (token : Token) : Name :=
  ⟨token.text, some token.place⟩

/-- The value of an integer in decimal digits after an optional minus sign, however many there
are. Whether they are too many to be read only matters once the whole text is a program. -/
def toInt (token : Token) : Int :=
  match token.text.toList with
  | '-' :: digits => -(Nat.ofDigitChars 10 digits 0 : Nat)
  | digits => (Nat.ofDigitChars 10 digits 0 : Nat)

/-- The rank that a dimensionality gives, which is its first digit. -/
def toRank (token : Token) : Nat :=
  Nat.ofDigitChars 10 (token.text.toList.take 1) 0

end Token

end Cellular
