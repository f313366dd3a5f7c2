/-!
# Tables

A table assigns values to distinct keys and remembers the order in which the keys
first came. Giving a key another value leaves the key where it is.
-/

namespace Cellular

variable {κ ν : Type} [DecidableEq κ]

/-- The entries with another value for a key: in its old place, or at the end. -/
def insertEntry (key : κ) (value : ν) : List (κ × ν) → List (κ × ν)
  | [] => [(key, value)]
  | entry :: rest =>
    if entry.1 = key then (key, value) :: rest else entry :: insertEntry key value rest

theorem keys_insertEntry (key : κ) (value : ν) (entries : List (κ × ν)) :
    (insertEntry key value entries).map Prod.fst =
      if key ∈ entries.map Prod.fst then entries.map Prod.fst
      else entries.map Prod.fst ++ [key] := by
  induction entries with
  | nil => simp [insertEntry]
  | cons entry rest ih =>
    by_cases same : entry.1 = key
    · simp [insertEntry, same]
    · have other : ¬key = entry.1 := fun h => same h.symm
      simp only [insertEntry, same, if_false, List.map_cons, List.mem_cons, other, false_or, ih]
      split <;> rfl

/-- Values for distinct keys, in the order of the keys. -/
structure Table (κ ν : Type) where
  entries : List (κ × ν)
  nodup : (entries.map Prod.fst).Nodup

namespace Table

/-- The table without entries. -/
def empty : Table κ ν := ⟨[], List.nodup_nil⟩

/-- The table with another value for a key. -/
def insert (table : Table κ ν) (key : κ) (value : ν) : Table κ ν where
  entries := insertEntry key value table.entries
  nodup := by
    rw [keys_insertEntry]
    split
    · exact table.nodup
    · rename_i fresh
      rw [List.nodup_append]
      refine ⟨table.nodup, by simp, ?_⟩
      rintro a member b single rfl
      rw [List.mem_singleton] at single
      exact fresh (single ▸ member)

/-- The table of a list of entries: of two values for one key the later one counts. -/
def ofList (entries : List (κ × ν)) : Table κ ν :=
  entries.foldl (fun table entry => table.insert entry.1 entry.2) empty

/-- The value of a key. -/
def get? (table : Table κ ν) (key : κ) : Option ν :=
  table.entries.lookup key

/-- Whether the table has a key. -/
def contains (table : Table κ ν) (key : κ) : Bool :=
  (table.get? key).isSome

/-- Whether two tables assign the same values to the same keys, in whatever order. -/
def same [BEq ν] (first second : Table κ ν) : Bool :=
  first.entries.length == second.entries.length &&
    first.entries.all fun entry => second.get? entry.1 == some entry.2

end Table

end Cellular
