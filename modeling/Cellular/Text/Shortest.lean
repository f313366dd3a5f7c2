/-!
# Shortest decimals

A binary floating-point number is written with the fewest decimal digits that
read back as the same number, and among those as the one nearest to it. The
search runs over the grids of multiples of a power of ten, from coarse to fine:
the first grid with a point in the interval of reals that round to the number
gives the digits. On one grid only the two neighbours of the number matter.

The number itself is `mantissa · 2 ^ exponent`; everything is exact arithmetic
on natural numbers, with the interval measured in quarters of the last place.
-/

namespace Cellular.Text

/-- A positive binary floating-point number and whether the next smaller one is
only half as far away as the next larger one. -/
structure Binary where
  mantissa : Nat
  exponent : Int
  narrowBelow : Bool

/-- A decimal `digits · 10 ^ exponent`. -/
structure ShortDecimal where
  digits : Nat
  exponent : Int

namespace Binary

/-- The number in quarters of its last place, over the power of ten of the grid:
a numerator for each quarter, and the common denominator. -/
def scale (x : Binary) (grid : Int) : Nat × Nat :=
  let quarter := x.exponent - 2
  (Nat.pow 2 quarter.toNat * Nat.pow 10 (-grid).toNat,
    Nat.pow 2 (-quarter).toNat * Nat.pow 10 grid.toNat)

/-- Whether `point · 10 ^ grid` rounds to the number. The ends of the interval
round to the even mantissa. -/
def rounds (x : Binary) (grid : Int) (point : Nat) : Bool :=
  let (unit, whole) := x.scale grid
  let low := (4 * x.mantissa - if x.narrowBelow then 1 else 2) * unit
  let high := (4 * x.mantissa + 2) * unit
  let value := point * whole
  if x.mantissa % 2 = 0 then low ≤ value && value ≤ high
  else low < value && value < high

/-- The grid point that stands for the number, if the grid has one: the nearer
neighbour, and of two equally near ones the even one. -/
def onGrid (x : Binary) (grid : Int) : Option ShortDecimal :=
  let (unit, whole) := x.scale grid
  let value := 4 * x.mantissa * unit
  let below := value / whole
  let above := below + 1
  let twice := 2 * (value % whole)
  let belowFirst := twice < whole || (twice = whole && below % 2 = 0)
  let order := if belowFirst then [below, above] else [above, below]
  (order.find? fun point => point ≠ 0 && x.rounds grid point).map fun point => ⟨point, grid⟩

/-- The shortest decimal of the number: its point on the coarsest grid that has
one. -/
def shortest (x : Binary) : Option ShortDecimal :=
  (List.range 660).findSome? fun (step : Nat) => x.onGrid (310 - step)

end Binary

/-- The size of a decimal exponent, in at least two digits. -/
def exponentText (e : Int) : String :=
  let size := toString e.natAbs
  (if e < 0 then "-" else "+") ++ (if e.natAbs < 10 then "0" ++ size else size)

/-- A decimal in positional form when its leading digit lies between the fourth
place after the point and the sixteenth before it, and in exponential form
otherwise. A whole number keeps one zero after the point. -/
def ShortDecimal.text (d : ShortDecimal) : String :=
  let digits := Nat.toDigits 10 d.digits
  let lead : Int := d.exponent + digits.length - 1
  if lead < -4 || 16 ≤ lead then
    let tail := digits.drop 1
    String.ofList (digits.take 1 ++ (if tail.isEmpty then [] else '.' :: tail)) ++
      "e" ++ exponentText lead
  else if lead < 0 then
    "0." ++ String.ofList (List.replicate (-lead - 1).toNat '0' ++ digits)
  else
    let whole := digits.take (lead.toNat + 1)
    let tail := digits.drop (lead.toNat + 1)
    String.ofList (whole ++ List.replicate (lead.toNat + 1 - whole.length) '0') ++ "." ++
      (if tail.isEmpty then "0" else String.ofList tail)

/-- The text of a floating-point number. -/
def real (x : Float) : String :=
  let bits : Nat := x.toBits.toNat
  let sign := if bits / Nat.pow 2 63 = 1 then "-" else ""
  let biased : Nat := bits / Nat.pow 2 52 % 2048
  let fraction : Nat := bits % Nat.pow 2 52
  if biased = 2047 then
    if fraction = 0 then sign ++ "inf" else "nan"
  else if biased = 0 && fraction = 0 then sign ++ "0.0"
  else
    let number : Binary :=
      if biased = 0 then ⟨fraction, -1074, false⟩
      else ⟨Nat.pow 2 52 + fraction, biased - 1075, fraction = 0 && 1 < biased⟩
    sign ++ ((number.shortest.map ShortDecimal.text).getD "nan")

end Cellular.Text
