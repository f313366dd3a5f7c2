import Mathlib.Data.List.Induction
import Mathlib.Data.List.Nodup
import Mathlib.Data.List.Perm.Subperm
import Cellular.States.Table

/-!
# Tables entry by entry

What a table holds, in terms of its entries: it finds each of them under its key, a new key
goes to the end, and a list without repeated keys is the table it is made into.

Of items with keys one may keep the first of each key. Read item by item, an item stays
exactly if its key is new, so a table that never overwrites a key holds the first entry of
each.
-/

namespace Cellular

/-! ## Tables -/

/-- A table finds its entries, and nothing else. -/
theorem Table.get?_eq_some_iff {κ ν : Type} [DecidableEq κ] {table : Table κ ν} {key : κ}
    {value : ν} : table.get? key = some value ↔ (key, value) ∈ table.entries := by
  rw [Table.get?, List.lookup_eq_some_iff]
  constructor
  · rintro ⟨before, after, split, _⟩
    rw [split]
    exact List.mem_append_right before List.mem_cons_self
  · intro member
    rcases List.append_of_mem member with ⟨before, after, split⟩
    refine ⟨before, after, split, ?_⟩
    intro entry inside
    have distinct := table.nodup
    rw [split, List.map_append, List.map_cons, List.nodup_append] at distinct
    rw [bne_iff_ne]
    exact (distinct.2.2 _ (List.mem_map_of_mem inside) _ List.mem_cons_self).symm

section Tables

variable {κ ν : Type} [DecidableEq κ]

omit [DecidableEq κ] in
/-- A table is known by its entries. -/
theorem Table.eq_of_entries {first second : Table κ ν} (same : first.entries = second.entries) :
    first = second := by
  cases first
  cases second
  exact (Table.mk.injEq ..).mpr same

theorem Table.contains_iff {table : Table κ ν} {key : κ} :
    table.contains key = true ↔ key ∈ table.entries.map Prod.fst := by
  simp only [contains, get?, List.lookup_isSome_iff, List.mem_map, beq_iff_eq]
  simp only [eq_comm]

theorem Table.contains_insert {table : Table κ ν} {key other : κ} {value : ν} :
    (table.insert key value).contains other = true ↔
      other = key ∨ table.contains other = true := by
  rw [contains_iff, contains_iff, insert, keys_insertEntry]
  split
  · rename_i member
    exact ⟨Or.inr, fun either => either.elim (fun same => same ▸ member) id⟩
  · rw [List.mem_append, List.mem_singleton, or_comm]

theorem insertEntry_of_fresh {key : κ} {entries : List (κ × ν)}
    (fresh : key ∉ entries.map Prod.fst) (value : ν) :
    insertEntry key value entries = entries ++ [(key, value)] := by
  induction entries with
  | nil => rfl
  | cons entry entries ih =>
      rw [List.map_cons, List.mem_cons, not_or] at fresh
      rcases fresh with ⟨other, fresh⟩
      rw [insertEntry, if_neg (Ne.symm other), ih fresh, List.cons_append]

private theorem entries_foldl_insert {entries : List (κ × ν)} {table : Table κ ν}
    (distinct : ((table.entries ++ entries).map Prod.fst).Nodup) :
    (entries.foldl (fun table entry => table.insert entry.1 entry.2) table).entries =
      table.entries ++ entries := by
  induction entries generalizing table with
  | nil => exact (List.append_nil _).symm
  | cons entry entries ih =>
      have fresh : entry.1 ∉ table.entries.map Prod.fst := by
        rw [List.map_append, List.map_cons, List.nodup_append] at distinct
        intro known
        exact distinct.2.2 _ known _ List.mem_cons_self rfl
      have inserted : (table.insert entry.1 entry.2).entries = table.entries ++ [entry] :=
        insertEntry_of_fresh fresh entry.2
      rw [List.append_cons] at distinct ⊢
      rw [List.foldl_cons, ih (inserted ▸ distinct), inserted]

/-- A table of distinct keys has the entries it is made of. -/
theorem Table.entries_ofList {entries : List (κ × ν)}
    (distinct : (entries.map Prod.fst).Nodup) : (Table.ofList entries).entries = entries :=
  entries_foldl_insert distinct

omit [DecidableEq κ] in
theorem Table.nodup_entries (table : Table κ ν) : table.entries.Nodup :=
  table.nodup.of_map

/-- The order of the entries does not matter. -/
theorem Table.get?_eq_of_perm {first second : Table κ ν}
    (permuted : first.entries.Perm second.entries) (key : κ) :
    first.get? key = second.get? key := by
  apply Option.ext
  intro value
  rw [get?_eq_some_iff, get?_eq_some_iff, permuted.mem_iff]

/-- Tables assign the same exactly if the same is found under every key. -/
theorem Table.same_iff [BEq ν] [LawfulBEq ν] {first second : Table κ ν} :
    first.same second = true ↔ ∀ key, first.get? key = second.get? key := by
  rw [same, Bool.and_eq_true, beq_iff_eq, List.all_eq_true]
  constructor
  · rintro ⟨length, known⟩
    have included : first.entries ⊆ second.entries := fun entry member =>
      get?_eq_some_iff.mp (beq_iff_eq.mp (known entry member))
    exact get?_eq_of_perm
      ((List.subperm_of_subset first.nodup_entries included).perm_of_length_le
        (Nat.le_of_eq length.symm))
  · intro same
    have permuted : first.entries.Perm second.entries := by
      rw [List.perm_ext_iff_of_nodup first.nodup_entries second.nodup_entries]
      rintro ⟨key, value⟩
      rw [← get?_eq_some_iff, ← get?_eq_some_iff, same key]
    exact ⟨permuted.length_eq, fun entry member =>
      beq_iff_eq.mpr (get?_eq_some_iff.mpr (permuted.subset member))⟩

end Tables

/-! ## The first of each key -/

section First

variable {α κ : Type} [DecidableEq κ] {key : α → κ}

/-- The first item of each key. -/
def firstBy (key : α → κ) (items : List α) : List α :=
  items.eraseDupsBy fun item earlier => key item == key earlier

/-- How many items have the key of an earlier one. -/
def repeats (key : α → κ) (items : List α) : Nat :=
  items.length - (firstBy key items).length

private theorem any_iff {item : α} {seen : List α} :
    (seen.any fun earlier => key item == key earlier) = true ↔ key item ∈ seen.map key := by
  simp only [List.any_eq_true, beq_iff_eq, List.mem_map, @eq_comm κ (key item)]

/-- The loop drops the last item if its key was seen, whether in the items before it or at
the start. -/
private theorem loop_concat (items seen : List α) (item : α) :
    List.eraseDupsBy.loop (fun item earlier => key item == key earlier) (items ++ [item]) seen =
      List.eraseDupsBy.loop (fun item earlier => key item == key earlier) items seen ++
        if key item ∈ (seen ++ items).map key then [] else [item] := by
  induction items generalizing seen with
  | nil =>
      rw [List.nil_append, List.append_nil]
      by_cases known : key item ∈ seen.map key
      · simp only [List.eraseDupsBy.loop, any_iff.mpr known, if_pos known, List.append_nil]
      · simp only [List.eraseDupsBy.loop, Bool.eq_false_iff.mpr (mt any_iff.mp known),
          if_neg known, List.reverse_cons]
  | cons first items ih =>
      rw [List.cons_append]
      by_cases known : key first ∈ seen.map key
      · have covered : key item ∈ (seen ++ items).map key ↔
            key item ∈ (seen ++ first :: items).map key := by
          rw [List.map_append, List.map_append, List.map_cons, List.mem_append, List.mem_append,
            List.mem_cons]
          constructor
          · exact Or.imp_right Or.inr
          · rintro (isSeen | same | later)
            · exact Or.inl isSeen
            · exact Or.inl (same ▸ known)
            · exact Or.inr later
        simp only [List.eraseDupsBy.loop, any_iff.mpr known, ih seen, covered]
      · have moved : key item ∈ (first :: seen ++ items).map key ↔
            key item ∈ (seen ++ first :: items).map key :=
          (List.perm_middle.map key).symm.mem_iff
        simp only [List.eraseDupsBy.loop, Bool.eq_false_iff.mpr (mt any_iff.mp known),
          ih (first :: seen), moved]

/-- Read item by item, an item stays exactly if its key is new. -/
theorem firstBy_concat (items : List α) (item : α) :
    firstBy key (items ++ [item]) =
      firstBy key items ++ if key item ∈ items.map key then [] else [item] :=
  loop_concat items [] item

theorem firstBy_sublist (items : List α) : (firstBy key items).Sublist items := by
  induction items using List.reverseRecOn with
  | nil => exact List.Sublist.refl _
  | append_singleton items item ih =>
      rw [firstBy_concat]
      apply ih.append
      split
      · exact List.nil_sublist _
      · exact List.Sublist.refl _

/-- The keys that are kept are the different keys, in the order in which they first come. -/
theorem map_firstBy (items : List α) :
    (firstBy key items).map key = (items.map key).eraseDups := by
  induction items using List.reverseRecOn with
  | nil => rfl
  | append_singleton items item ih =>
      rw [firstBy_concat, List.map_append, ih, List.map_append, List.eraseDups_append]
      congr 1
      by_cases known : key item ∈ items.map key
      · have gone : [key item].removeAll (items.map key) = [] := by
          simpa [List.removeAll] using known
        rw [if_pos known, List.map_singleton, gone]
        rfl
      · have kept : [key item].removeAll (items.map key) = [key item] := by
          simpa [List.removeAll] using known
        rw [if_neg known, List.map_singleton, kept]
        rfl

theorem mem_map_firstBy {items : List α} {k : κ} :
    k ∈ (firstBy key items).map key ↔ k ∈ items.map key := by
  rw [map_firstBy, List.mem_eraseDups]

theorem nodup_map_firstBy (items : List α) : ((firstBy key items).map key).Nodup := by
  induction items using List.reverseRecOn with
  | nil => exact List.nodup_nil
  | append_singleton items item ih =>
      rw [firstBy_concat]
      split
      · rwa [List.append_nil]
      · rename_i fresh
        rw [List.map_append, List.nodup_append]
        refine ⟨ih, by simp, ?_⟩
        rintro k member other single rfl
        rw [List.map_singleton, List.mem_singleton] at single
        exact fresh (single ▸ mem_map_firstBy.mp member)

theorem repeats_concat (items : List α) (item : α) :
    repeats key (items ++ [item]) =
      repeats key items + if key item ∈ items.map key then 1 else 0 := by
  have fewer : (firstBy key items).length ≤ items.length := (firstBy_sublist items).length_le
  rw [repeats, repeats, firstBy_concat, List.length_append, List.length_append,
    List.length_singleton]
  split
  · rw [List.length_nil]
    omega
  · rw [List.length_singleton]
    omega

/-- Nothing is dropped if no key is repeated. -/
theorem firstBy_of_repeats_eq_zero {items : List α} (none : repeats key items = 0) :
    firstBy key items = items :=
  (firstBy_sublist items).eq_of_length_le (Nat.le_of_sub_eq_zero none)

/-- Among pairs, the first value of a key is the one that is looked up. -/
theorem lookup_firstBy {ν : Type} (pairs : List (κ × ν)) (k : κ) :
    (firstBy Prod.fst pairs).lookup k = pairs.lookup k := by
  induction pairs using List.reverseRecOn with
  | nil => rfl
  | append_singleton pairs pair ih =>
      rw [firstBy_concat, List.lookup_append, List.lookup_append, ih]
      split
      · rename_i known
        by_cases same : k = pair.1
        · have found : (pairs.lookup k).isSome = true := by
            rw [List.lookup_isSome_iff]
            rcases List.mem_map.mp known with ⟨earlier, member, first⟩
            exact ⟨earlier, member, beq_iff_eq.mpr (same.trans first.symm)⟩
          rcases Option.isSome_iff_exists.mp found with ⟨value, known⟩
          rw [known, Option.some_or, Option.some_or]
        · have other : (k == pair.1) = false := beq_eq_false_iff_ne.mpr same
          rw [List.lookup_cons, other]
      · rfl

end First

end Cellular
