import Cellular.Proofs.Source.Spelling

/-!
# Layout

A text is laid out from tokens if it is made of their words, in their order, with blanks
and comments before, between and behind them. Skipping the layout leads to the next word,
or to the end of the text if there is none.
-/

namespace Cellular

/-- A comment without the end of its line. -/
structure IsComment (chars : List Char) : Prop where
  opened : ['#'] <+: chars ∨ ['/', '/'] <+: chars
  oneLine : ∀ c ∈ chars, c ≠ '\n'

/-- What is left of a text after a comment: nothing, or the end of the line and what
follows it. -/
def EndsLine (chars : List Char) : Prop :=
  ∀ c ∈ chars.head?, c = '\n'

/-- A text laid out from the words of some tokens, where a word may stand directly before
the rest of the text if the two join. -/
inductive Laid (joins : Token → List Char → Prop) : List Token → List Char → Prop where
  | done : Laid joins [] []
  | blank {c : Char} {tokens : List Token} {chars : List Char} :
      isBlank c = true → Laid joins tokens chars → Laid joins tokens (c :: chars)
  | comment {body : List Char} {tokens : List Token} {chars : List Char} :
      IsComment body → EndsLine chars → Laid joins tokens chars →
        Laid joins tokens (body ++ chars)
  | word {token : Token} {tokens : List Token} {chars : List Char} :
      joins token chars → Laid joins tokens chars →
        Laid joins (token :: tokens) (token.text.toList ++ chars)

/-! ## Skipping leaves the words -/

private theorem laid_of_skipLayout {joins : Token → List Char → Prop} {tokens : List Token}
    (inComment : Bool) (place : Position) {chars : List Char}
    (laid : Laid joins tokens (skipLayout inComment place chars).rest) :
    if inComment then
      ∃ body rest, chars = body ++ rest ∧ (∀ c ∈ body, c ≠ '\n') ∧ EndsLine rest ∧
        Laid joins tokens rest
    else Laid joins tokens chars := by
  induction chars generalizing inComment place with
  | nil =>
      cases inComment with
      | true => exact ⟨[], [], rfl, by simp, by simp [EndsLine], laid⟩
      | false => exact laid
  | cons c chars ih =>
      rw [skipLayout] at laid
      cases inComment with
      | true =>
          rw [if_pos rfl] at laid
          have known := ih _ _ laid
          by_cases newline : c = '\n'
          · subst newline
            exact ⟨[], '\n' :: chars, rfl, by simp, by simp [EndsLine], .blank rfl known⟩
          · rw [bne_iff_ne.mpr newline] at known
            rcases known with ⟨body, rest, rfl, oneLine, ends, laid⟩
            exact ⟨c :: body, rest, rfl, List.forall_mem_cons.mpr ⟨newline, oneLine⟩, ends, laid⟩
      | false =>
          rw [if_neg Bool.false_ne_true] at laid
          split at laid
          · rename_i blank
            exact .blank blank (ih _ _ laid)
          split at laid
          · rename_i opens
            rcases ih _ _ laid with ⟨body, rest, rfl, oneLine, ends, laid⟩
            rw [Bool.or_eq_true, Bool.and_eq_true, decide_eq_true_eq, decide_eq_true_eq,
              decide_eq_true_eq] at opens
            have notNewline : c ≠ '\n' := by
              rcases opens with rfl | ⟨rfl, _⟩ <;> decide
            have opened : ['#'] <+: c :: body ∨ ['/', '/'] <+: c :: body := by
              rcases opens with rfl | ⟨rfl, second⟩
              · exact Or.inl (List.cons_prefix_cons.mpr ⟨rfl, List.nil_prefix⟩)
              · rcases body with _ | ⟨d, body⟩
                · exact absurd (ends '/' second) (by decide)
                · obtain rfl : d = '/' := Option.some.inj second
                  exact Or.inr (by simp)
            have comment : IsComment (c :: body) :=
              ⟨opened, List.forall_mem_cons.mpr ⟨notNewline, oneLine⟩⟩
            exact .comment comment ends laid
          · exact laid

/-- A text is laid out from some tokens if what is left of it after its first layout is. -/
theorem laid_of_skip {joins : Token → List Char → Prop} {tokens : List Token} {cursor : Cursor}
    (laid : Laid joins tokens cursor.skip.rest) : Laid joins tokens cursor.rest :=
  laid_of_skipLayout false cursor.place laid

/-! ## Skipping stops at a word -/

/-- The characters with which layout begins. -/
private def layoutStarts : List Char := [' ', '\t', '\x0c', '\r', '\n', '#', '/']

private theorem starts_word {p : Char → Bool} (apart : layoutStarts.any p = false) {c : Char}
    (passes : p c = true) : isBlank c = false ∧ c ≠ '#' ∧ c ≠ '/' := by
  have outside : c ∉ layoutStarts :=
    fun member => List.any_eq_false.mp apart c member passes
  simp only [layoutStarts, List.mem_cons, List.not_mem_nil, or_false, not_or] at outside
  simp [isBlank, outside]

/-- No word begins like layout. -/
theorem Terminal.Spells.start {terminal : Terminal} {chars : List Char}
    (spelled : terminal.Spells chars) :
    ∃ c rest, chars = c :: rest ∧ isBlank c = false ∧ c ≠ '#' ∧ c ≠ '/' := by
  cases terminal with
  | dimensionality =>
      rcases spelled with ⟨digit, rfl | rfl | rfl, rfl⟩ <;> exact ⟨_, _, rfl, by decide⟩
  | name =>
      rcases spelled with ⟨c, rest, rfl, letter, _⟩
      exact ⟨c, rest, rfl, starts_word rfl letter⟩
  | integer =>
      rcases spelled with ⟨digits, rfl | rfl, nonempty, inside⟩
      · rcases chars with _ | ⟨c, rest⟩
        · exact absurd rfl nonempty
        · exact ⟨c, rest, rfl, starts_word rfl (inside c List.mem_cons_self)⟩
      · exact ⟨'-', digits, rfl, by decide⟩
  | comparison =>
      rcases spelled with ⟨comparison, rfl⟩
      cases comparison <;> exact ⟨_, _, rfl, by decide⟩
  | keyword k =>
      obtain rfl := spelled
      cases k <;> exact ⟨_, _, rfl, by decide⟩
  | mark m =>
      obtain rfl := spelled
      cases m <;> exact ⟨_, _, rfl, by decide⟩

theorem skipLayout_word {terminal : Terminal} {chars : List Char}
    (spelled : terminal.Spells chars) (place : Position) (rest : List Char) :
    skipLayout false place (chars ++ rest) = ⟨place, chars ++ rest⟩ := by
  rcases spelled.start with ⟨c, others, rfl, notBlank, notHash, notSlash⟩
  rw [List.cons_append, skipLayout, if_neg Bool.false_ne_true, if_neg (by simp [notBlank]),
    if_neg (by simp [notHash, notSlash])]

private theorem skipLayout_oneLine {body rest : List Char} (oneLine : ∀ c ∈ body, c ≠ '\n')
    (ends : EndsLine rest) (place : Position) :
    skipLayout true place (body ++ rest) = skipLayout false (place.advance body) rest := by
  induction body generalizing place with
  | nil =>
      rcases rest with _ | ⟨c, rest⟩
      · rfl
      · obtain rfl : c = '\n' := ends c rfl
        rfl
  | cons c body ih =>
      rcases List.forall_mem_cons.mp oneLine with ⟨notNewline, others⟩
      rw [List.cons_append, skipLayout, if_pos rfl, bne_iff_ne.mpr notNewline, ih others]
      rfl

theorem skipLayout_comment {body rest : List Char} (comment : IsComment body)
    (ends : EndsLine rest) (place : Position) :
    skipLayout false place (body ++ rest) = skipLayout false (place.advance body) rest := by
  rcases comment with ⟨opened, oneLine⟩
  rcases body with _ | ⟨c, body⟩
  · exact absurd opened (by simp)
  have inside := skipLayout_oneLine (List.forall_mem_cons.mp oneLine).2 ends (place.next c)
  have opens : isBlank c = false ∧ (c = '#' ∨ c = '/' ∧ (body ++ rest).head? = some '/') := by
    rcases opened with opened | opened
    · obtain rfl := (List.cons_prefix_cons.mp opened).1
      exact ⟨rfl, Or.inl rfl⟩
    · rcases List.cons_prefix_cons.mp opened with ⟨rfl, second⟩
      rcases body with _ | ⟨d, body⟩
      · exact absurd second (by simp)
      · obtain rfl := (List.cons_prefix_cons.mp second).1
        exact ⟨rfl, Or.inr ⟨rfl, rfl⟩⟩
  rw [List.cons_append, skipLayout, if_neg Bool.false_ne_true, if_neg (by rw [opens.1]; decide),
    if_pos (by simpa using opens.2), inside]
  rfl

/-- After its layout a text that is laid out from tokens goes on with the first word. -/
theorem Laid.skip_cons {joins : Token → List Char → Prop} {token : Token} {tokens : List Token}
    {chars : List Char} (spelled : token.Spelled) (laid : Laid joins (token :: tokens) chars)
    (place : Position) :
    ∃ rest, (skipLayout false place chars).rest = token.text.toList ++ rest ∧
      joins token rest ∧ Laid joins tokens rest := by
  generalize all_eq : token :: tokens = all at laid
  induction laid generalizing place with
  | done => exact absurd all_eq (List.cons_ne_nil _ _)
  | @blank c _ chars blank _ ih =>
      rw [skipLayout, if_neg Bool.false_ne_true, if_pos blank]
      exact ih (place.next c) all_eq
  | comment comment ends _ ih =>
      rw [skipLayout_comment comment ends]
      exact ih _ all_eq
  | @word other others rest joined laid ih =>
      rcases List.cons.inj all_eq with ⟨rfl, rfl⟩
      rw [skipLayout_word spelled]
      exact ⟨rest, rfl, joined, laid⟩

/-- A text that is laid out from no tokens is layout to its end. -/
theorem Laid.skip_nil {joins : Token → List Char → Prop} {chars : List Char}
    (laid : Laid joins [] chars) (place : Position) :
    (skipLayout false place chars).rest = [] := by
  generalize all_eq : ([] : List Token) = all at laid
  induction laid generalizing place with
  | done => rfl
  | @blank c _ chars blank _ ih =>
      rw [skipLayout, if_neg Bool.false_ne_true, if_pos blank]
      exact ih (place.next c) all_eq
  | comment comment ends _ ih =>
      rw [skipLayout_comment comment ends]
      exact ih _ all_eq
  | word _ _ _ => exact absurd all_eq (by simp)

end Cellular
