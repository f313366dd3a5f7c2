/-!
# Places in a source text

Lines and columns count from one. A line ends at a newline and at nothing else,
and a column counts characters, whatever their width or encoding.
-/

namespace Cellular

/-- A place in a source text. -/
structure Position where
  line : Nat
  column : Nat
deriving DecidableEq, Repr

namespace Position

/-- The place of the first character. -/
def start : Position := ⟨1, 1⟩

/-- The place after one more character. -/
def next (place : Position) (c : Char) : Position :=
  if c = '\n' then ⟨place.line + 1, 1⟩ else ⟨place.line, place.column + 1⟩

/-- The place after a run of characters. -/
def advance (place : Position) (chars : List Char) : Position :=
  chars.foldl next place

@[simp]
theorem advance_nil (place : Position) : place.advance [] = place :=
  rfl

@[simp]
theorem advance_cons (place : Position) (c : Char) (chars : List Char) :
    place.advance (c :: chars) = (place.next c).advance chars :=
  rfl

theorem advance_append (place : Position) (first second : List Char) :
    place.advance (first ++ second) = (place.advance first).advance second := by
  simp [advance]

end Position

/-- A name of a program. Names that were read from a source text know their
place; names of programs that were put together otherwise have none. -/
structure Name where
  text : String
  place : Option Position := none
deriving DecidableEq, Repr

instance : ToString Name := ⟨Name.text⟩

end Cellular
