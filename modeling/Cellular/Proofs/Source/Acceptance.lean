import Cellular.Proofs.Source.Anchored
import Cellular.Proofs.Source.Reading

/-!
# Texts that are accepted

A text that is laid out from the tokens of a run through a whole program is accepted, as
long as no word runs into what follows it. The tokens that are found and the program that
is made of them are those of the run, at the places where the words now stand.
-/

namespace Cellular

/-- Every word is followed by something that does not continue it. -/
def Apart (token : Token) (rest : List Char) : Prop :=
  token.terminal.Stops rest

namespace Place

/-- A token leads alike from places that are the same but for the places of their names. -/
theorem step_alike {place start next : Place} (alike : place.anchored = start.anchored)
    {token other : Token} (same : token.anchored = other.anchored)
    (stepped : start.step other = some next) :
    ∃ after, place.step token = some after ∧ after.anchored = next.anchored := by
  have moved := step_anchored place token
  rw [alike, same, step_anchored, stepped] at moved
  exact Option.map_eq_some_iff.mp moved.symm

theorem finish?_alike {place start : Place} (alike : place.anchored = start.anchored)
    {program : List Declaration} (finished : start.finish? = some program) :
    ∃ read, place.finish? = some read ∧
      read.map Declaration.anchored = program.map Declaration.anchored := by
  have moved := finish?_anchored place
  rw [alike, finish?_anchored, finished] at moved
  exact Option.map_eq_some_iff.mp moved.symm

theorem wanted_alike {place start : Place} (alike : place.anchored = start.anchored) :
    place.wanted = start.wanted := by
  rw [← wanted_anchored, alike, wanted_anchored]

end Place

/-- Where a run leads from one place, the reader gets from any place that is the same but
for the places of its names. -/
theorem Run.reads {start final : Place} {tokens : List Token} (run : Run start tokens final)
    {program : List Declaration} (finished : final.finish? = some program) {place : Place}
    (alike : place.anchored = start.anchored) {cursor : Cursor}
    (laid : Laid Apart tokens cursor.rest) :
    ∃ found read, Reads place cursor found read ∧
      found.map Token.anchored = tokens.map Token.anchored ∧
      read.map Declaration.anchored = program.map Declaration.anchored := by
  induction run generalizing place cursor with
  | @done final =>
      rcases Place.finish?_alike alike finished with ⟨read, known, same⟩
      exact ⟨[], read, .done (laid.skip_nil cursor.place) known, rfl, same⟩
  | @token start next final token tokens admits stepped run ih =>
      rcases laid.skip_cons admits.spelled cursor.place with ⟨rest, skipped, apart, laid⟩
      have word : nextWord place.wanted cursor.skip.rest =
          some ⟨token.terminal, token.text.toList, rest⟩ := by
        rw [Place.wanted_alike alike, Cursor.skip, skipped]
        exact nextWord_spelling start.orderly admits apart
      have same : (Word.token ⟨token.terminal, token.text.toList, rest⟩
          cursor.skip.place).anchored = token.anchored := by
        rw [Word.token, String.ofList_toList]
        rfl
      rcases Place.step_alike alike same stepped with ⟨after, stepped', alike'⟩
      have laid' : Laid Apart tokens (Word.after ⟨token.terminal, token.text.toList, rest⟩
          cursor.skip.place).rest := laid
      rcases ih finished alike' laid' with ⟨found, read, reads, tokens_eq, same'⟩
      refine ⟨_, read, .word word stepped' reads, ?_, same'⟩
      rw [List.map_cons, List.map_cons, same, tokens_eq]

/-- A text laid out from a run through a whole program is read as this program. -/
theorem Run.readProgram {final : Place} {tokens : List Token}
    (run : Run (.between []) tokens final) {program : List Declaration}
    (finished : final.finish? = some program) {source : String}
    (laid : Laid Apart tokens source.toList) :
    ∃ read, Cellular.readProgram source = .ok read ∧
      read.map Declaration.anchored = program.map Declaration.anchored := by
  have whole : Laid Apart tokens (⟨.start, source.toList⟩ : Cursor).rest := laid
  rcases run.reads finished rfl whole with ⟨found, read, reads, _, same⟩
  exact ⟨read, readFrom_eq_ok_iff.mpr ⟨found, reads⟩, same⟩

/-! ## Words with single spaces between them -/

/-- The words of some tokens with single spaces between them. -/
def spaced (tokens : List Token) : String :=
  " ".intercalate (tokens.map Token.text)

private theorem apart_space (token : Token) (rest : List Char) : Apart token (' ' :: rest) := by
  intro c member
  obtain rfl : ' ' = c := Option.some.inj member
  rcases token with ⟨terminal, text, place⟩
  cases terminal with
  | mark m => cases m <;> rfl
  | _ => rfl

theorem laid_spaced (tokens : List Token) : Laid Apart tokens (spaced tokens).toList := by
  induction tokens with
  | nil => exact .done
  | cons token tokens ih =>
      cases tokens with
      | nil =>
          have alone : Laid Apart [token] (token.text.toList ++ []) :=
            .word (fun _ member => absurd member (by simp)) .done
          rwa [List.append_nil] at alone
      | cons second tokens =>
          have blank : Laid Apart (second :: tokens) (' ' :: (spaced (second :: tokens)).toList) :=
            .blank rfl ih
          have whole : Laid Apart (token :: second :: tokens)
              (token.text.toList ++ ' ' :: (spaced (second :: tokens)).toList) :=
            .word (apart_space token _) blank
          rw [spaced, List.map_cons, List.map_cons, String.intercalate_cons_cons,
            String.toList_append, String.toList_append, List.append_assoc]
          exact whole

end Cellular
