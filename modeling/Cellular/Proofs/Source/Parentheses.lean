import Cellular.Source.Token
import Mathlib.Data.List.Infix

/-!
# Pairs of parentheses

A text is balanced if its parentheses close each other. Two parentheses are a pair if the
text between them is balanced. A pair that groups can be taken out of a text, while that of a
test stays: it stands behind the word of the test. In a text that is put together from
balanced texts every pair lies within one of them.
-/

namespace Cellular

/-! ## Balanced texts -/

/-- A text in which every parenthesis that closes has one to close before it, and in which
none stays open. -/
structure Balanced (chars : List Char) : Prop where
  closed : chars.count ')' = chars.count '('
  started : ∀ start, start <+: chars → start.count ')' ≤ start.count '('

theorem balanced_iff {chars : List Char} :
    Balanced chars ↔ chars.count ')' = chars.count '(' ∧
      ∀ start ∈ chars.inits, start.count ')' ≤ start.count '(' := by
  simp only [List.mem_inits]
  exact ⟨fun balanced => ⟨balanced.closed, balanced.started⟩,
    fun ⟨closed, started⟩ => ⟨closed, started⟩⟩

instance (chars : List Char) : Decidable (Balanced chars) :=
  decidable_of_iff' _ balanced_iff

namespace Balanced

/-- A text without parentheses. -/
theorem of_notMem {chars : List Char} (unopened : '(' ∉ chars) (unclosed : ')' ∉ chars) :
    Balanced chars where
  closed := by rw [List.count_eq_zero_of_not_mem unopened, List.count_eq_zero_of_not_mem unclosed]
  started start isStart := by
    have unclosed' : ')' ∉ start := fun member => unclosed (isStart.subset member)
    rw [List.count_eq_zero_of_not_mem unclosed']
    exact Nat.zero_le _

theorem append {first second : List Char} (before : Balanced first) (after : Balanced second) :
    Balanced (first ++ second) where
  closed := by rw [List.count_append, List.count_append, before.closed, after.closed]
  started start isStart := by
    rcases List.prefix_or_prefix_of_prefix isStart (List.prefix_append first second) with
      inFirst | ⟨rest, rfl⟩
    · exact before.started start inFirst
    · have inSecond := after.started rest ((List.prefix_append_right_inj first).mp isStart)
      rw [List.count_append, List.count_append, before.closed]
      exact Nat.add_le_add_left inSecond _

theorem enclosed {chars : List Char} (inner : Balanced chars) :
    Balanced ('(' :: (chars ++ [')'])) where
  closed := by
    have same := inner.closed
    simp only [List.count_cons, List.count_append, List.count_nil]
    simpa using same
  started start isStart := by
    rcases List.prefix_cons_iff.mp isStart with rfl | ⟨rest, rfl, isRest⟩
    · exact Nat.le_refl 0
    rcases List.prefix_concat_iff.mp isRest with rfl | inside
    · have same := inner.closed
      simp only [List.count_cons, List.count_append, List.count_nil]
      simpa using Nat.le_of_eq same
    · have started := inner.started rest inside
      simp only [List.count_cons]
      simpa using Nat.le_succ_of_le started

/-- Behind a balanced beginning no parenthesis closes. -/
theorem not_closing {inner rest : List Char} (matching : Balanced inner) :
    ¬ Balanced (inner ++ ')' :: rest) := by
  intro balanced
  have started := balanced.started (inner ++ [')']) ⟨rest, by simp⟩
  have closed := matching.closed
  simp only [List.count_append, List.count_singleton] at started
  simp at started
  omega

/-- Behind a parenthesis that opens, more parentheses close than open. -/
theorem count_lt {before rest : List Char} (balanced : Balanced (before ++ '(' :: rest)) :
    rest.count '(' < rest.count ')' := by
  have closed := balanced.closed
  have started := balanced.started before (List.prefix_append before _)
  simp only [List.count_append, List.count_cons] at closed
  simp at closed
  omega

end Balanced

/-! ## Taking out a pair -/

/-- The second text is the first one without a pair of parentheses that group. -/
def Unwraps (chars less : List Char) : Prop :=
  ∃ before inner after, chars = before ++ '(' :: (inner ++ ')' :: after) ∧
    less = before ++ (inner ++ after) ∧ Balanced inner ∧
    ¬ Keyword.neighborhood.text.toList <:+ before

namespace Unwraps

/-- A pair in two texts, of which the first is balanced, lies within one of them. -/
theorem of_append {first second less : List Char} (balanced : Balanced first)
    (unwraps : Unwraps (first ++ second) less) :
    (∃ part, Unwraps first part ∧ less = part ++ second) ∨
      ∃ part, Unwraps second part ∧ less = first ++ part := by
  rcases unwraps with ⟨before, inner, after, same, rfl, matching, groups⟩
  rcases List.append_eq_append_iff.mp same with ⟨gap, rfl, tail⟩ | ⟨rest, rfl, tail⟩
  · right
    have groups' : ¬ Keyword.neighborhood.text.toList <:+ gap :=
      fun word => groups (word.trans (List.suffix_append first gap))
    exact ⟨gap ++ (inner ++ after), ⟨gap, inner, after, tail, rfl, matching, groups'⟩,
      List.append_assoc ..⟩
  rcases rest with _ | ⟨c, rest⟩
  · right
    refine ⟨inner ++ after, ⟨[], inner, after, tail.symm, rfl, matching, ?_⟩, by simp⟩
    decide
  obtain ⟨rfl, closing⟩ := List.cons.inj tail
  have closes := balanced.count_lt
  rcases List.append_eq_append_iff.mp closing with ⟨gap, rfl, behind⟩ | ⟨others, rfl, _⟩
  · rcases gap with _ | ⟨c, gap⟩
    · rw [List.append_nil, matching.closed] at closes
      exact absurd closes (Nat.lt_irrefl _)
    · obtain ⟨rfl, rfl⟩ := List.cons.inj behind
      left
      exact ⟨before ++ (inner ++ gap), ⟨before, inner, gap, rfl, rfl, matching, groups⟩, by simp⟩
  · -- the pair would be closed behind the first text
    exact absurd (matching.started rest (List.prefix_append rest others)) (Nat.not_le.mpr closes)

/-- A text without opening parentheses has no pair. -/
theorem mem {chars less : List Char} (unwraps : Unwraps chars less) : '(' ∈ chars := by
  rcases unwraps with ⟨before, inner, after, rfl, _⟩
  simp

/-- A pair in an enclosed text is the one around the text or lies within it. -/
theorem of_enclosed {chars less : List Char} (balanced : Balanced chars)
    (unwraps : Unwraps ('(' :: (chars ++ [')'])) less) :
    less = chars ∨ ∃ part, Unwraps chars part ∧ less = '(' :: (part ++ [')']) := by
  rcases unwraps with ⟨before, inner, after, same, rfl, matching, groups⟩
  rcases before with _ | ⟨c, before⟩
  · left
    have tail := (List.cons.inj same).2
    rcases List.append_eq_append_iff.mp tail with ⟨gap, rfl, behind⟩ | ⟨gap, rfl, behind⟩
    · rcases List.append_eq_singleton_iff.mp behind.symm with ⟨rfl, last⟩ | ⟨_, none⟩
      · obtain ⟨_, rfl⟩ := List.cons.inj last
        simp
      · exact absurd none (List.cons_ne_nil _ _)
    · rcases gap with _ | ⟨c, gap⟩
      · obtain ⟨_, rfl⟩ := List.cons.inj behind
        simp
      · obtain ⟨rfl, _⟩ := List.cons.inj behind
        exact absurd balanced matching.not_closing
  · right
    obtain ⟨rfl, tail⟩ := List.cons.inj same
    have groups' : ¬ Keyword.neighborhood.text.toList <:+ before :=
      fun word => groups (word.trans (List.suffix_cons '(' before))
    have within : Unwraps (chars ++ [')']) (before ++ (inner ++ after)) :=
      ⟨before, inner, after, tail, rfl, matching, groups'⟩
    rcases of_append balanced within with ⟨part, unwraps, less⟩ | ⟨part, unwraps, _⟩
    · exact ⟨part, unwraps, congrArg ('(' :: ·) less⟩
    · exact absurd unwraps.mem (by decide)

/-- The pair of a test does not group. -/
theorem not_call {rest less : List Char} (single : '(' ∉ rest) :
    ¬ Unwraps (Keyword.neighborhood.text.toList ++ '(' :: rest) less := by
  rintro ⟨before, inner, after, same, _, _, groups⟩
  have word : '(' ∉ Keyword.neighborhood.text.toList := by decide
  have split := (List.append_cons_inj_of_notMem word single).mp same
  rw [split.1] at groups
  exact groups List.suffix_rfl

/-- One parenthesis that opens is missing then. -/
theorem count {chars less : List Char} (unwraps : Unwraps chars less) :
    chars.count '(' = less.count '(' + 1 := by
  rcases unwraps with ⟨before, inner, after, rfl, rfl, _⟩
  simp [List.count_append]
  omega

end Unwraps

end Cellular
