import Cellular.Space.Grid
import Cellular.Text.Scalar

/-!
# Capacity

What can be computed does not depend on memory, but what can be stored does. A grid
has a place in memory if its cells can be counted in bytes by an address, where axes
without extent do not make room for the others, and if there is so much memory. A cell
takes four bytes, and an item of a sequence takes eight. How much memory there is, is a
number of bytes that everything here is about.

A cell holds the numbers that four bytes are enough for. One that counts goes on at the
least of them after the greatest.
-/

namespace Cellular

/-- The greatest distance between two places in memory. -/
def greatestAddress : Nat := 9223372036854775807

/-- The number of bytes that a cell takes. -/
def cellBytes : Nat := 4

/-- The number of bytes that an item of a sequence takes. -/
def itemBytes : Nat := 8

/-- The number of cells of a shape, apart from the axes without extent. -/
def volume (shape : List Nat) : Nat :=
  shape.foldr (fun n cells => if n = 0 then cells else n * cells) 1

/-- Why a value has no place in a cell: it is too large, it is no number, or it is nothing
that could be one. -/
inductive CellFault where
  | outOfRange
  | noNumber
  | nothing
deriving DecidableEq, Repr

/-- Whether a number has a place in a cell. -/
def fitsCell (state : Int) : Bool :=
  -2147483648 ≤ state && state ≤ 2147483647

/-- The least count that no cell has room for. -/
def countLimit : Nat := 2147483648

/-- The number that a cell holds when it has counted once more. -/
def cellAfter (kept : Int) : Int :=
  (kept + 1).bmod 4294967296

/-- The number that a cell holds when it has counted a number of times, from zero on. -/
def keptCount (count : Nat) : Int :=
  (count : Int).bmod 4294967296

theorem keptCount_zero : keptCount 0 = 0 := by
  decide

theorem cellAfter_keptCount (count : Nat) : cellAfter (keptCount count) = keptCount (count + 1) :=
  Int.bmod_add_bmod

theorem fitsCell_keptCount (count : Nat) : fitsCell (keptCount count) = true := by
  have low : -(4294967296 / 2 : Int) ≤ keptCount count := Int.le_bmod (by decide)
  have high : keptCount count < (4294967296 + 1) / 2 := Int.bmod_lt (by decide)
  rw [fitsCell, Bool.and_eq_true, decide_eq_true_iff, decide_eq_true_iff]
  omega

/-- A count that fits a cell is kept as it is. -/
theorem keptCount_of_lt {count : Nat} (small : count < countLimit) : keptCount count = count := by
  rw [countLimit] at small
  exact Int.bmod_eq_of_le (by omega) (by omega)

/-- A count that does not fit a cell is kept as a negative number, unless it is twice as large. -/
theorem keptCount_of_le {count : Nat} (large : countLimit ≤ count)
    (below : count < 2 * countLimit) : keptCount count = count - 2 * (countLimit : Int) := by
  have limit : countLimit = 2147483648 := rfl
  have turned : keptCount count = ((count : Int) - 4294967296).bmod 4294967296 :=
    (Int.sub_bmod_right (count : Int) 4294967296).symm
  rw [turned, Int.bmod_eq_of_le (by omega) (by omega), limit]
  rfl

/-- The number that a cell keeps of a value. -/
def Scalar.cell : Scalar → Except CellFault Int
  | .whole n => if fitsCell n then .ok n else .error .outOfRange
  | .truth b => .ok (if b then 1 else 0)
  | .real x => .ok x.toInt32.toInt
  | .word _ => .error .noNumber
  | .missing => .error .nothing

/-- Why a grid has no place in memory: it is too large for addresses, the frame around it
is wider than any distance, or there is not so much memory. -/
inductive CapacityFault where
  | tooLarge (shape : List Nat)
  | tooWide (width : Nat)
  | noMemory (shape : List Nat)
deriving DecidableEq, Repr

/-- Why there can be no grid of the given shape in so much memory, if each cell takes the
given number of bytes. -/
def storageFault? (memory bytes : Nat) (shape : List Nat) : Option CapacityFault :=
  if greatestAddress < bytes * volume shape then some (.tooLarge shape)
  else if memory < bytes * cellCount shape then some (.noMemory shape)
  else none

/-- Why a sequence has no place in memory: it has more items than can be counted, or more
than there is memory for. -/
inductive LengthFault where
  | tooLong (length : Nat)
  | noMemory (length : Nat)
deriving DecidableEq, Repr

/-- Why there can be no sequence of the given length in so much memory. -/
def lengthFault? (memory length : Nat) : Option LengthFault :=
  if greatestAddress < length then some (.tooLong length)
  else if memory < itemBytes * length then some (.noMemory length)
  else none

/-- Why a sequence that grows item by item does not come to the given length in so much
memory. Its length is not known before, so it is only ever memory that is missing. -/
def growthFault? (memory length : Nat) : Option LengthFault :=
  if min memory greatestAddress < itemBytes * length then some (.noMemory length) else none

/-- Why the vectors of a cube cannot be listed in so much memory. Every axis needs the
sequence of its coordinates, and these sequences stand in another one, whose bytes have to
be counted by an address; without axes nothing of this is needed. Then the vectors follow
one by one. -/
def cubeFault? (memory rank : Nat) (radius : Int) : Option LengthFault :=
  let side := (2 * radius + 1).toNat
  if rank = 0 then none
  else if greatestAddress < itemBytes * rank then some (.tooLong rank)
  else ((lengthFault? memory rank).or (lengthFault? memory side)).or
    (growthFault? memory (cellCount (List.replicate rank side)))

end Cellular
