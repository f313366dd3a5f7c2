import Cellular.Proofs.Source.Acceptance
import Cellular.Proofs.Source.Gaps

/-!
# Reading partway

The reader can be stopped between any two words. What it has done by then depends on the
part of the text before the cursor only: if another text takes the place of what is left,
and no word runs into it, the same tokens are found at the same places. A text is read
again, but for the places of its names, if the cursor stands before the same words.
-/

namespace Cellular

namespace Reaches

variable {place middle final : Place} {cursor here last : Cursor} {tokens others : List Token}

theorem of_skip {start : Position} {chars : List Char} {word : Word}
    (skipped : cursor.skip = ⟨start, chars⟩) (found : nextWord place.wanted chars = some word)
    (stepped : place.step (word.token start) = some middle)
    (rest : Reaches middle (word.after start) tokens final last) :
    Reaches place cursor (word.token start :: tokens) final last := by
  have start_eq : cursor.skip.place = start := congrArg Cursor.place skipped
  have chars_eq : cursor.skip.rest = chars := congrArg Cursor.rest skipped
  subst start_eq chars_eq
  exact .word found stepped rest

theorem trans (first : Reaches place cursor tokens middle here)
    (second : Reaches middle here others final last) :
    Reaches place cursor (tokens ++ others) final last := by
  induction first with
  | done => exact second
  | word found stepped _ ih => exact .word found stepped (ih second)

/-- The way to a later place leads through every token. -/
theorem split {first second : List Token} {token : Token}
    (reaches : Reaches place cursor (first ++ token :: second) final last) :
    ∃ middle here word next, Reaches place cursor first middle here ∧
      nextWord middle.wanted here.skip.rest = some word ∧ token = word.token here.skip.place ∧
      middle.step token = some next ∧
        Reaches next (word.after here.skip.place) second final last := by
  induction first generalizing place cursor with
  | nil =>
      cases reaches with
      | word found stepped rest => exact ⟨_, _, _, _, .done, found, rfl, stepped, rest⟩
  | cons _ first ih =>
      cases reaches with
      | word found stepped rest =>
          rcases ih rest with ⟨middle, here, word, next, before, behind⟩
          exact ⟨middle, here, word, next, .word found stepped before, behind⟩

theorem reads {program : List Declaration} (first : Reaches place cursor tokens middle here)
    (second : Reads middle here others program) :
    Reads place cursor (tokens ++ others) program := by
  induction first with
  | done => exact second
  | word found stepped _ ih => exact .word found stepped (ih second)

end Reaches

/-! ## Whole readings -/

namespace Reads

variable {place : Place} {cursor : Cursor} {tokens : List Token} {program : List Declaration}

/-- Every token is found at some point on the way. -/
theorem exists_of_mem (reads : Reads place cursor tokens program) {token : Token}
    (member : token ∈ tokens) :
    ∃ first second middle here word next, tokens = first ++ token :: second ∧
      Reaches place cursor first middle here ∧
      nextWord middle.wanted here.skip.rest = some word ∧ token = word.token here.skip.place ∧
      middle.step token = some next ∧ Reads next (word.after here.skip.place) second program := by
  rcases reads.reaches with ⟨final, last, reaches, ended, finished⟩
  rcases List.append_of_mem member with ⟨first, second, rfl⟩
  rcases reaches.split with ⟨middle, here, word, next, before, found, same, stepped, behind⟩
  have rest := behind.reads (.done ended finished)
  rw [List.append_nil] at rest
  exact ⟨first, second, middle, here, word, next, rfl, before, found, same, stepped, rest⟩

/-- What is read from a cursor depends on the words behind it only. -/
theorem of_skip (reads : Reads place cursor tokens program) {other : Cursor}
    (same : other.skip = cursor.skip) : Reads place other tokens program := by
  cases reads with
  | done ended finished => exact .done (by rw [same, ended]) finished
  | word found stepped rest =>
      rw [← same] at found stepped rest ⊢
      exact .word found stepped rest

/-- Before the same words, a place that is the same but for the places of its names reads
the same but for the places of its names. -/
theorem alike (reads : Reads place cursor tokens program) {other : Place}
    (same : other.anchored = place.anchored) {here : Cursor}
    (words : here.skip.rest = cursor.skip.rest) :
    ∃ found read, Reads other here found read ∧
      found.map Token.anchored = tokens.map Token.anchored ∧
      read.map Declaration.anchored = program.map Declaration.anchored := by
  induction reads generalizing other here with
  | done ended finished =>
      rcases Place.finish?_alike same finished with ⟨read, finished', same'⟩
      exact ⟨[], read, .done (words.trans ended) finished', rfl, same'⟩
  | @word place next cursor word tokens program found stepped _ ih =>
      have found' : nextWord other.wanted here.skip.rest = some word := by
        rw [words, Place.wanted_alike same, found]
      have same' : (word.token here.skip.place).anchored =
          (word.token cursor.skip.place).anchored := rfl
      have words' : (word.after here.skip.place).skip.rest =
          (word.after cursor.skip.place).skip.rest := rest_skipLayout_congr ..
      rcases Place.step_alike same same' stepped with ⟨after, stepped', alike⟩
      rcases ih alike words' with ⟨tail, read, reads, tokens_eq, program_eq⟩
      refine ⟨_, read, .word found' stepped' reads, ?_, program_eq⟩
      rw [List.map_cons, List.map_cons, same', tokens_eq]

end Reads

/-! ## What is left is exchanged -/

theorem Resumes.append {rest other : List Char} (resumes : Resumes rest other)
    (used : List Char) : Resumes (used ++ rest) (used ++ other) := by
  cases used with
  | nil => exact resumes
  | cons _ _ => exact Or.inl rfl

namespace Reaches

variable {place final : Place} {cursor last : Cursor} {tokens : List Token}

/-- The reader stands behind a part of the text, and finds the same tokens in it before any
other text that words do not run into. -/
theorem exists_used (reaches : Reaches place cursor tokens final last) :
    ∃ used, cursor.rest = used ++ last.rest ∧ last.place = cursor.place.advance used ∧
      ∀ other, Resumes last.rest other →
        Reaches place ⟨cursor.place, used ++ other⟩ tokens final ⟨last.place, other⟩ := by
  induction reaches with
  | done => exact ⟨[], rfl, rfl, fun _ _ => .done⟩
  | @word place next final cursor last word tokens found stepped _ ih =>
      rcases cursor.exists_gap (ne_nil_of_nextWord found) with ⟨gap, isGap, split, moved⟩
      rcases ih with ⟨used, split', moved', exchanged⟩
      have rest_eq : word.rest = used ++ last.rest := split'
      refine ⟨gap ++ word.chars ++ used, ?_, ?_, ?_⟩
      · rw [split, ← nextWord_append found, rest_eq]
        simp only [List.append_assoc]
      · rw [moved', Word.after, moved, Position.advance_append, Position.advance_append]
      · intro other resumes
        have spelled := (admits_of_nextWord found .start).spelled
        rw [Token.Spelled, String.toList_ofList] at spelled
        have found' : nextWord place.wanted (word.chars ++ (used ++ other)) =
            some { word with rest := used ++ other } := by
          apply place.nextWord_resume found
          rw [rest_eq]
          exact resumes.append used
        have skipped : (⟨cursor.place, gap ++ word.chars ++ used ++ other⟩ : Cursor).skip =
            ⟨cursor.skip.place, word.chars ++ (used ++ other)⟩ := by
          rw [moved, Cursor.skip, List.append_assoc, List.append_assoc, skipLayout_gap isGap,
            skipLayout_word spelled]
        have whole := Reaches.of_skip skipped found' stepped (exchanged other resumes)
        exact whole

/-- The next word stands behind a gap. -/
theorem exists_before (reaches : Reaches place cursor tokens final last)
    (more : last.skip.rest ≠ []) :
    ∃ before gap, cursor.rest = before ++ last.skip.rest ∧
      last.skip.place = cursor.place.advance before ∧ last.rest = gap ++ last.skip.rest ∧
        Gap gap := by
  rcases reaches.exists_used with ⟨used, whole, moved, _⟩
  rcases last.exists_gap more with ⟨gap, isGap, split, skipped⟩
  refine ⟨used ++ gap, gap, ?_, ?_, split, isGap⟩
  · rw [List.append_assoc, ← split, whole]
  · rw [skipped, moved, Position.advance_append]

end Reaches

end Cellular
