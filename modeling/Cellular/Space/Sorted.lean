/-!
# Sorted sets

A finite set is kept as its list of members in increasing order, so that equal
sets are equal lists.
-/

namespace Cellular

/-- Drops every item that equals the one before it. -/
def dropRepeats {α : Type} [BEq α] : List α → List α
  | [] => []
  | [a] => [a]
  | a :: b :: rest => if a == b then dropRepeats (b :: rest) else a :: dropRepeats (b :: rest)

/-- The distinct items of a list in increasing order. -/
def sortedSet {α : Type} [BEq α] (le : α → α → Bool) (items : List α) : List α :=
  dropRepeats (items.mergeSort le)

end Cellular
