/-!
# Numbers of limited length

Whole numbers are read and written in decimal digits, and there is a greatest number of
digits for both. A minus sign is no digit.
-/

namespace Cellular

/-- The greatest number of digits of a whole number that is read or written. -/
def greatestDigits : Nat := 4300

/-- The number of decimal digits of a whole number. -/
def digitCount (n : Int) : Nat :=
  (Nat.toDigits 10 n.natAbs).length

/-- Whether a whole number has no more digits than can be written. -/
def isWritable (n : Int) : Bool :=
  digitCount n ≤ greatestDigits

end Cellular
