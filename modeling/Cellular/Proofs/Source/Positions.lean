import Cellular.Source.Position
import Mathlib.Data.List.Basic

/-!
# Places behind parts of a text

A place counts the newlines before it, and the characters behind the last of them. So it
tells how much of the text stands before it, it lies in a line of the text, and moving the
text down by some lines moves the place with it.
-/

namespace Cellular

namespace Position

theorem line_advance (place : Position) (chars : List Char) :
    (place.advance chars).line = place.line + chars.count '\n' := by
  induction chars generalizing place with
  | nil => rfl
  | cons c rest ih =>
      rw [advance_cons, ih, next]
      by_cases newline : c = '\n'
      · rw [if_pos newline, newline, List.count_cons_self, Nat.add_assoc, Nat.add_comm 1]
      · rw [if_neg newline, List.count_cons_of_ne newline]

theorem column_advance_of_oneLine {chars : List Char} (oneLine : '\n' ∉ chars)
    (place : Position) : (place.advance chars).column = place.column + chars.length := by
  induction chars generalizing place with
  | nil => rfl
  | cons c rest ih =>
      rcases not_or.mp (mt List.mem_cons.mpr oneLine) with ⟨other, others⟩
      rw [advance_cons, ih others, next, if_neg (Ne.symm other), List.length_cons, Nat.add_assoc,
        Nat.add_comm 1]

/-- Only the empty text leads back to where it starts. -/
theorem eq_nil_of_advance {place : Position} {chars : List Char}
    (same : place.advance chars = place) : chars = [] := by
  have lines := place.line_advance chars
  rw [same] at lines
  have oneLine : '\n' ∉ chars := List.count_eq_zero.mp (Nat.left_eq_add.mp lines)
  have columns := column_advance_of_oneLine oneLine place
  rw [same] at columns
  exact List.eq_nil_of_length_eq_zero (Nat.left_eq_add.mp columns)

/-- The places behind two beginnings of one text tell them apart. -/
theorem advance_injective {place : Position} {first second rest others : List Char}
    (whole : first ++ rest = second ++ others) (same : place.advance first = place.advance second) :
    first = second := by
  rcases List.append_eq_append_iff.mp whole with ⟨more, rfl, _⟩ | ⟨more, rfl, _⟩
  · rw [advance_append] at same
    rw [eq_nil_of_advance same.symm, List.append_nil]
  · rw [advance_append] at same
    rw [eq_nil_of_advance same, List.append_nil]

/-! ## Lines -/

/-- A place in a line of a text, or directly behind its last character. Lines end at newlines
and at nothing else. -/
structure Inside (place : Position) (text : List Char) : Prop where
  line_pos : 1 ≤ place.line
  column_pos : 1 ≤ place.column
  exists_line : ∃ line, (text.splitOn '\n')[place.line - 1]? = some line ∧
    place.column ≤ line.length + 1

/-- The line of a place behind a beginning of a text goes on with the first line of the rest. In
the first line columns go on from where the text starts, in the other lines from one. -/
private theorem exists_line_advance (place : Position) (before after : List Char) :
    ∃ lead first rest, after.splitOn '\n' = first :: rest ∧
      ((before ++ after).splitOn '\n')[before.count '\n']? = some (lead ++ first) ∧
        (place.advance before).column =
          lead.length + (if '\n' ∈ before then 1 else place.column) := by
  induction before generalizing place with
  | nil =>
      rcases List.exists_cons_of_ne_nil (List.splitOn_ne_nil '\n' after) with ⟨first, rest, split⟩
      refine ⟨[], first, rest, split, ?_, (Nat.zero_add _).symm⟩
      rw [List.nil_append, split, List.count_nil, List.getElem?_cons_zero, List.nil_append]
  | cons c before ih =>
      rw [advance_cons, List.cons_append, List.splitOn_cons_eq_if_modifyHead]
      rcases ih (place.next c) with ⟨lead, first, rest, split, found, column⟩
      by_cases newline : c = '\n'
      · subst newline
        refine ⟨lead, first, rest, split, ?_, ?_⟩
        · rw [if_pos (beq_self_eq_true _), List.count_cons_self, List.getElem?_cons_succ, found]
        · rw [if_pos List.mem_cons_self, column, next, if_pos rfl, ite_self]
      · rw [if_neg (by simpa using newline), List.count_cons_of_ne newline]
        have moved : (place.next c).column = place.column + 1 := by rw [next, if_neg newline]
        by_cases later : '\n' ∈ before
        · rcases Nat.exists_eq_add_one.mpr (List.count_pos_iff.mpr later) with ⟨n, count⟩
          rw [count] at found ⊢
          refine ⟨lead, first, rest, split, ?_, ?_⟩
          · rw [List.getElem?_modifyHead_succ, found]
          · rw [if_pos (List.mem_cons_of_mem c later), column, if_pos later]
        · rw [List.count_eq_zero.mpr later] at found ⊢
          refine ⟨c :: lead, first, rest, split, ?_, ?_⟩
          · rw [List.getElem?_modifyHead_zero, found, Option.map_some, List.cons_append]
          · rw [if_neg (by simp [later, Ne.symm newline]), column, if_neg later, moved,
              List.length_cons, Nat.add_assoc, Nat.add_comm 1]

/-- The line and the column of a place behind a beginning of a text. -/
private theorem exists_line_start (before after : List Char) :
    ∃ lead first rest, after.splitOn '\n' = first :: rest ∧
      ((before ++ after).splitOn '\n')[(start.advance before).line - 1]? = some (lead ++ first) ∧
        (start.advance before).column = lead.length + 1 := by
  rcases exists_line_advance start before after with ⟨lead, first, rest, split, found, column⟩
  have number : (start.advance before).line - 1 = before.count '\n' := by
    rw [line_advance]
    exact Nat.add_sub_cancel_left 1 _
  refine ⟨lead, first, rest, split, number ▸ found, ?_⟩
  rwa [show start.column = 1 from rfl, ite_self] at column

theorem one_le_line_advance (before : List Char) : 1 ≤ (start.advance before).line := by
  rw [line_advance]
  exact Nat.le_add_right 1 _

theorem column_advance_pos {place : Position} (positive : 1 ≤ place.column) (chars : List Char) :
    1 ≤ (place.advance chars).column := by
  induction chars generalizing place with
  | nil => exact positive
  | cons c rest ih =>
      apply ih
      rw [next]
      split
      · exact Nat.le_refl 1
      · exact Nat.le_add_left 1 _

/-- The place behind a beginning of a text is inside the text. -/
theorem inside_advance (before after : List Char) :
    (start.advance before).Inside (before ++ after) where
  line_pos := one_le_line_advance before
  column_pos := column_advance_pos (Nat.le_refl 1) before
  exists_line := by
    rcases exists_line_start before after with ⟨lead, first, _, _, found, column⟩
    refine ⟨lead ++ first, found, ?_⟩
    rw [column, List.length_append]
    omega

/-! ## What is read at a place -/

/-- A place in a line of a text from where on the line reads the given characters. -/
structure Shows (place : Position) (text chars : List Char) : Prop where
  line_pos : 1 ≤ place.line
  column_pos : 1 ≤ place.column
  exists_line : ∃ line, (text.splitOn '\n')[place.line - 1]? = some line ∧
    chars <+: line.drop (place.column - 1)

private theorem splitOn_append {chars : List Char} (oneLine : '\n' ∉ chars) (after : List Char) :
    ∃ first rest, (chars ++ after).splitOn '\n' = (chars ++ first) :: rest := by
  induction chars with
  | nil => exact List.exists_cons_of_ne_nil (List.splitOn_ne_nil '\n' after)
  | cons c chars ih =>
      rcases not_or.mp (mt List.mem_cons.mpr oneLine) with ⟨other, others⟩
      rcases ih others with ⟨first, rest, split⟩
      refine ⟨first, rest, ?_⟩
      rw [List.cons_append, List.splitOn_cons_eq_if_modifyHead, split,
        if_neg (by simpa using Ne.symm other), List.modifyHead_cons, List.cons_append]

/-- Behind a beginning of a text the text reads what comes next. -/
theorem shows_advance (before after : List Char) {chars : List Char} (oneLine : '\n' ∉ chars) :
    (start.advance before).Shows (before ++ chars ++ after) chars where
  line_pos := one_le_line_advance before
  column_pos := column_advance_pos (Nat.le_refl 1) before
  exists_line := by
    rcases exists_line_start before (chars ++ after) with ⟨lead, first, rest, split, found, column⟩
    rcases splitOn_append oneLine after with ⟨more, rest', split'⟩
    obtain rfl := (List.cons.inj (split.symm.trans split')).1
    refine ⟨_, List.append_assoc .. ▸ found, ?_⟩
    rw [column, Nat.add_sub_cancel, List.drop_left]
    exact List.prefix_append _ _

/-! ## The order of places -/

/-- A place comes before another one in an earlier line, or further left in the same line. -/
def Before (place other : Position) : Prop :=
  place.line < other.line ∨ place.line = other.line ∧ place.column < other.column

theorem Before.trans {first second third : Position} (before : first.Before second)
    (after : second.Before third) : first.Before third := by
  unfold Before at *
  omega

theorem before_next (place : Position) (c : Char) : place.Before (place.next c) := by
  rw [next]
  split
  · exact Or.inl (Nat.lt_succ_self _)
  · exact Or.inr ⟨rfl, Nat.lt_succ_self _⟩

/-- Whatever is read leads to a later place. -/
theorem before_advance (place : Position) {chars : List Char} (nonempty : chars ≠ []) :
    place.Before (place.advance chars) := by
  induction chars generalizing place with
  | nil => exact absurd rfl nonempty
  | cons c chars ih =>
      rw [advance_cons]
      by_cases last : chars = []
      · rw [last, advance_nil]
        exact place.before_next c
      · exact (place.before_next c).trans (ih _ last)

/-! ## Moving down -/

/-- A place as many lines further down, in the same column. -/
def lowered (n : Nat) (place : Position) : Position :=
  ⟨place.line + n, place.column⟩

theorem lowered_next (n : Nat) (place : Position) (c : Char) :
    (place.next c).lowered n = (place.lowered n).next c := by
  rw [next, next]
  split
  · simp only [lowered, Nat.add_right_comm]
  · rfl

theorem lowered_advance (n : Nat) (place : Position) (chars : List Char) :
    (place.advance chars).lowered n = (place.lowered n).advance chars := by
  induction chars generalizing place with
  | nil => rfl
  | cons c rest ih => rw [advance_cons, ih, lowered_next, advance_cons]

/-- A newline leads to the first column of a line below the text before it. -/
theorem advance_newline (chars : List Char) :
    start.advance (chars ++ ['\n']) = start.lowered (chars.count '\n' + 1) := by
  rw [advance_append, advance_cons, advance_nil, next, if_pos rfl, line_advance]
  rfl

end Position

end Cellular
