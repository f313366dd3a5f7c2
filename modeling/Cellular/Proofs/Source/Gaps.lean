import Cellular.Proofs.Source.Layout
import Mathlib.Data.List.TakeWhile

/-!
# Gaps between words

A gap is a run of blanks and of whole comments, each with the newline that ends it. Skipping
layout leads behind a gap, whatever the gap is made of; only at the end of a text a comment
may be left open, and then there is nothing behind it.
-/

namespace Cellular

/-- Blanks and comments in a row, each comment with the end of its line. -/
inductive Gap : List Char → Prop where
  | nil : Gap []
  | blank {c : Char} {rest : List Char} : isBlank c = true → Gap rest → Gap (c :: rest)
  | comment {body rest : List Char} : IsComment body → Gap rest → Gap (body ++ '\n' :: rest)

theorem Gap.append {first second : List Char} (before : Gap first) (after : Gap second) :
    Gap (first ++ second) := by
  induction before with
  | nil => exact after
  | blank blank _ ih => exact .blank blank ih
  | comment comment _ ih =>
      rw [List.append_assoc]
      exact .comment comment ih

theorem IsComment.exists_cons {body : List Char} (comment : IsComment body) :
    ∃ c rest, body = c :: rest ∧ (c = '#' ∨ c = '/') := by
  rcases comment with ⟨opened, _⟩
  rcases body with _ | ⟨c, rest⟩
  · exact absurd opened (by simp)
  · refine ⟨c, rest, rfl, ?_⟩
    rcases opened with opened | opened
    · exact Or.inl (List.cons_prefix_cons.mp opened).1.symm
    · exact Or.inr (List.cons_prefix_cons.mp opened).1.symm

/-- No word runs into a gap. -/
theorem Gap.breaks {gap : List Char} (isGap : Gap gap) (nonempty : gap ≠ []) (rest : List Char) :
    Breaks (gap ++ rest) := by
  cases isGap with
  | nil => exact absurd rfl nonempty
  | blank blank _ => exact breaks_blank blank _
  | comment comment _ =>
      rcases comment.exists_cons with ⟨c, others, rfl, rfl | rfl⟩ <;>
        exact breaks_cons (by decide) (by decide) (by decide) _

theorem Gap.laid {joins : Token → List Char → Prop} {tokens : List Token} {gap rest : List Char}
    (isGap : Gap gap) (laid : Laid joins tokens rest) : Laid joins tokens (gap ++ rest) := by
  induction isGap with
  | nil => exact laid
  | blank blank _ ih => exact .blank blank ih
  | @comment body others comment _ ih =>
      rw [List.append_assoc]
      exact .comment comment (fun c newline => (Option.some.inj newline).symm) (.blank rfl ih)

theorem IsComment.append {body more : List Char} (comment : IsComment body)
    (oneLine : ∀ c ∈ more, c ≠ '\n') : IsComment (body ++ more) where
  opened := comment.opened.imp (·.trans (List.prefix_append body more))
    (·.trans (List.prefix_append body more))
  oneLine := List.forall_mem_append.mpr ⟨comment.oneLine, oneLine⟩

/-- A comment may go on into a gap, up to the end of its line. -/
theorem IsComment.laid_append {joins : Token → List Char → Prop} {body gap : List Char}
    (comment : IsComment body) (isGap : Gap gap) : Laid joins [] (body ++ gap) := by
  have closed : ∀ {whole : List Char}, Gap whole → Laid joins [] whole := by
    intro whole isGap
    have laid : Laid joins [] (whole ++ []) := isGap.laid .done
    rwa [List.append_nil] at laid
  induction isGap generalizing body with
  | nil => exact .comment comment (fun _ member => absurd member (by simp)) .done
  | @blank c rest blank isGap ih =>
      by_cases newline : c = '\n'
      · subst newline
        exact closed (.comment comment isGap)
      · rw [List.append_cons]
        exact ih (comment.append (by simpa using newline))
  | @comment others rest inner isGap _ =>
      rw [← List.append_assoc]
      exact closed (.comment (comment.append inner.oneLine) isGap)

/-! ## Skipping gaps -/

theorem skipLayout_blank {c : Char} (blank : isBlank c = true) (place : Position)
    (rest : List Char) :
    skipLayout false place (c :: rest) = skipLayout false (place.next c) rest := by
  rw [skipLayout, if_neg Bool.false_ne_true, if_pos blank]

theorem skipLayout_gap {gap : List Char} (isGap : Gap gap) (place : Position) (rest : List Char) :
    skipLayout false place (gap ++ rest) = skipLayout false (place.advance gap) rest := by
  induction isGap generalizing place with
  | nil => rfl
  | blank blank _ ih =>
      rw [List.cons_append, skipLayout_blank blank, ih]
      rfl
  | @comment body others comment _ ih =>
      have ends : EndsLine ('\n' :: (others ++ rest)) :=
        fun c newline => (Option.some.inj newline).symm
      rw [List.append_assoc, List.cons_append, skipLayout_comment comment ends,
        skipLayout_blank rfl, ih, Position.advance_append]
      rfl

/-- Skipping layout leads behind a gap, or to the end of a text with an open comment. -/
inductive Skips (place : Position) (chars : List Char) (after : Cursor) : Prop where
  | gap {gap : List Char} : Gap gap → chars = gap ++ after.rest →
      after.place = place.advance gap → Skips place chars after
  | comment {gap body : List Char} : Gap gap → IsComment body → chars = gap ++ body →
      after.rest = [] → Skips place chars after

/-- What opens a comment belongs to a comment up to the end of the line. -/
private theorem exists_comment {c : Char} {rest : List Char}
    (opens : (c = '#' || (c = '/' && rest.head? = some '/')) = true) :
    ∃ line tail, rest = line ++ tail ∧ IsComment (c :: line) ∧ EndsLine tail := by
  have oneLine : ∀ d ∈ rest.takeWhile (· != '\n'), d ≠ '\n' := by
    intro d member
    exact bne_iff_ne.mp (List.all_eq_true.mp List.all_takeWhile d member)
  refine ⟨rest.takeWhile (· != '\n'), rest.dropWhile (· != '\n'),
    List.takeWhile_append_dropWhile.symm, ?_, ?_⟩
  · rw [Bool.or_eq_true, Bool.and_eq_true, decide_eq_true_eq, decide_eq_true_eq,
      decide_eq_true_eq] at opens
    rcases opens with rfl | ⟨rfl, second⟩
    · exact ⟨Or.inl (by simp), List.forall_mem_cons.mpr ⟨by decide, oneLine⟩⟩
    · rcases rest with _ | ⟨d, rest⟩
      · exact absurd second (by simp)
      · obtain rfl : d = '/' := Option.some.inj second
        exact ⟨Or.inr (by simp), List.forall_mem_cons.mpr ⟨by decide, oneLine⟩⟩
  · intro d first
    have stopped := List.head?_dropWhile_not (· != '\n') rest
    rw [Option.mem_def.mp first] at stopped
    simpa using stopped

theorem skips_skipLayout (place : Position) (chars : List Char) :
    Skips place chars (skipLayout false place chars) := by
  induction length : chars.length using Nat.strong_induction_on generalizing place chars with
  | _ n ih =>
  subst length
  rcases chars with _ | ⟨c, rest⟩
  · exact .gap .nil rfl rfl
  by_cases blank : isBlank c = true
  · rw [skipLayout_blank blank]
    cases ih _ (Nat.lt_succ_self _) (place.next c) rest rfl with
    | gap isGap split moved => exact .gap (.blank blank isGap) (congrArg (c :: ·) split) moved
    | comment isGap comment split ended =>
        exact .comment (.blank blank isGap) comment (congrArg (c :: ·) split) ended
  by_cases opens : (c = '#' || (c = '/' && rest.head? = some '/')) = true
  · rcases exists_comment opens with ⟨line, tail, rfl, comment, ends⟩
    rw [← List.cons_append, skipLayout_comment comment ends]
    rcases tail with _ | ⟨d, tail⟩
    · exact .comment .nil comment (List.append_nil _) rfl
    · obtain rfl : d = '\n' := ends d rfl
      have shorter : tail.length < (c :: (line ++ '\n' :: tail)).length := by
        simp only [List.length_cons, List.length_append]
        omega
      rw [skipLayout_blank rfl]
      cases ih _ shorter ((place.advance (c :: line)).next '\n') tail rfl with
      | @gap gap isGap split moved =>
          refine .gap (.comment comment isGap) ?_ ?_
          · simp only [List.append_assoc, List.cons_append, ← split]
          · rw [moved, Position.advance_append]
            rfl
      | @comment gap body isGap inner split ended =>
          refine .comment (.comment comment isGap) inner ?_ ended
          simp only [List.append_assoc, List.cons_append, ← split]
  · rw [skipLayout, if_neg Bool.false_ne_true, if_neg blank, if_neg opens]
    exact .gap .nil rfl rfl

namespace Cursor

variable {cursor : Cursor}

/-- A word stands behind a gap. -/
theorem exists_gap (more : cursor.skip.rest ≠ []) :
    ∃ gap, Gap gap ∧ cursor.rest = gap ++ cursor.skip.rest ∧
      cursor.skip.place = cursor.place.advance gap := by
  cases skips_skipLayout cursor.place cursor.rest with
  | gap isGap split moved => exact ⟨_, isGap, split, moved⟩
  | comment _ _ _ ended => exact absurd ended more

/-- Where no word follows, a newline makes a gap of what is left. -/
theorem gap_of_ended (ended : cursor.skip.rest = []) : Gap (cursor.rest ++ ['\n']) := by
  have newline : Gap ['\n'] := .blank rfl .nil
  cases skips_skipLayout cursor.place cursor.rest with
  | gap isGap split _ =>
      rw [split, show (skipLayout false cursor.place cursor.rest).rest = [] from ended,
        List.append_nil]
      exact isGap.append newline
  | comment isGap comment split _ =>
      rw [split, List.append_assoc]
      exact isGap.append (.comment comment .nil)

/-- Where no word follows, none follows behind a further gap. -/
theorem laid_of_ended {joins : Token → List Char → Prop} (ended : cursor.skip.rest = [])
    {gap : List Char} (isGap : Gap gap) : Laid joins [] (cursor.rest ++ gap) := by
  cases skips_skipLayout cursor.place cursor.rest with
  | gap before split _ =>
      rw [split, show (skipLayout false cursor.place cursor.rest).rest = [] from ended,
        List.append_nil]
      have whole : Laid joins [] (_ ++ gap ++ []) := (before.append isGap).laid .done
      rwa [List.append_nil] at whole
  | comment before comment split _ =>
      rw [split, List.append_assoc]
      exact before.laid (comment.laid_append isGap)

end Cursor

/-- What is left after skipping does not depend on the place. -/
theorem rest_skipLayout_congr (inComment : Bool) (first second : Position) (chars : List Char) :
    (skipLayout inComment first chars).rest = (skipLayout inComment second chars).rest := by
  induction chars generalizing inComment first second with
  | nil => rfl
  | cons c rest ih =>
      rw [skipLayout, skipLayout]
      split
      · exact ih ..
      · split
        · exact ih ..
        · split
          · exact ih ..
          · rfl

end Cellular
