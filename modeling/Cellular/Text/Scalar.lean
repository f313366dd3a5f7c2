import Cellular.Text.Quoted
import Cellular.Text.Sequence
import Cellular.Text.Shortest

/-!
# Scalars

Callers may hand in plain values of any kind where the library needs a state
name, a key or the extent of an axis. A scalar is such a value; it has a text of
its own and a text as an item of a sequence, which differ only for words.

Numbers of all kinds are compared by what they are worth, exactly: a truth value is worth
zero or one, and a real number is a whole number over a power of two.
-/

namespace Cellular

/-- A plain value of no particular kind. -/
inductive Scalar where
  | whole (n : Int)
  | truth (b : Bool)
  | real (x : Float)
  | word (text : String)
  | missing

namespace Scalar

/-- The value as a text of its own. -/
def text : Scalar → String
  | whole n => toString n
  | truth b => Text.truth b
  | real x => Text.real x
  | word w => w
  | missing => Text.missing

instance : ToString Scalar := ⟨text⟩

/-- The value as an item of a sequence: words are quoted. -/
def item : Scalar → String
  | word w => Text.quoted w
  | value => value.text

/-! ## Worth and order -/

/-- A real number as a whole number and the power of two that divides it. -/
def fraction (x : Float) : Int × Nat :=
  let bits : Nat := x.toBits.toNat
  let biased : Nat := bits / Nat.pow 2 52 % 2048
  let digits : Nat := bits % Nat.pow 2 52
  let mantissa : Nat := if biased = 0 then digits else Nat.pow 2 52 + digits
  let exponent : Int := (max biased 1 : Nat) - 1075
  let size : Int := (mantissa * Nat.pow 2 exponent.toNat : Nat)
  (if bits / Nat.pow 2 63 = 1 then -size else size, (-exponent).toNat)

/-- What a number is worth, over a power of two. -/
def worth? : Scalar → Option (Int × Nat)
  | whole n => some (n, 0)
  | truth b => some (if b then 1 else 0, 0)
  | real x => some (fraction x)
  | word _ | missing => none

/-- The whole number that a value stands for. A real number stands for none, even if it
is whole. -/
def integer? : Scalar → Option Int
  | whole n => some n
  | truth b => some (if b then 1 else 0)
  | real _ | word _ | missing => none

/-- The whole number that a value is worth. -/
def wholeWorth? (value : Scalar) : Option Int :=
  match value.worth? with
  | some (n, power) => if n % Nat.pow 2 power = 0 then some (n / Nat.pow 2 power) else none
  | none => none

/-- Whether two values are equal. -/
def same (first second : Scalar) : Bool :=
  match first.worth?, second.worth? with
  | some (a, s), some (b, t) => a * Nat.pow 2 t == b * Nat.pow 2 s
  | none, none => match first, second with
    | word v, word w => v == w
    | missing, missing => true
    | _, _ => false
  | _, _ => false

/-- Whether a value is less than another, if they can be compared: two numbers, or two
words. -/
def less? (first second : Scalar) : Option Bool :=
  match first.worth?, second.worth? with
  | some (a, s), some (b, t) => some (a * Nat.pow 2 t < b * Nat.pow 2 s)
  | none, none => match first, second with
    | word v, word w => some (v < w)
    | _, _ => none
  | _, _ => none

/-- The opposite of a number. -/
def neg? : Scalar → Option Scalar
  | real x => some (real (-x))
  | value => value.integer?.map fun n => whole (-n)

end Scalar

end Cellular
