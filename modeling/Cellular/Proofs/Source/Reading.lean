import Cellular.Proofs.Source.Layout
import Cellular.Proofs.Source.Words
import Cellular.Source.Reader

/-!
# Runs of the reader

The reader finds tokens and takes a step with each. What it does with a text that it
accepts is a run over these tokens: every place on the way admits the next token, and the
token leads to the next place. The text is laid out from the tokens of the run.
-/

namespace Cellular

/-! ## Runs over tokens -/

/-- Tokens that lead from one place to another, each of which is admitted where it stands. -/
inductive Run : Place → List Token → Place → Prop where
  | done {place : Place} : Run place [] place
  | token {place next final : Place} {token : Token} {tokens : List Token} :
      Admits place.wanted token → place.step token = some next → Run next tokens final →
        Run place (token :: tokens) final

theorem Run.spelled {start final : Place} {tokens : List Token} (run : Run start tokens final) :
    ∀ token ∈ tokens, token.Spelled := by
  induction run with
  | done => exact fun _ member => absurd member List.not_mem_nil
  | token admits _ _ ih => exact List.forall_mem_cons.mpr ⟨admits.spelled, ih⟩

theorem Run.append {first second third : Place} {before after : List Token}
    (run : Run first before second) (others : Run second after third) :
    Run first (before ++ after) third := by
  induction run with
  | done => exact others
  | token admits stepped _ ih => exact .token admits stepped (ih others)

/-- A token that fits is looked for. -/
theorem Place.wanted_of_step {place next : Place} {token : Token}
    (stepped : place.step token = some next) : token.terminal ∈ place.wanted := by
  cases place <;> simp only [step, keyed, directed, nextEntry, marked, continued] at stepped
  case attributeEnd entry list last =>
    cases list <;> simp only at stepped <;> split at stepped <;> simp_all [wanted]
  case firstName =>
    repeat' split at stepped
    all_goals simp_all [wanted, directions]
  all_goals
    repeat' split at stepped
    all_goals simp_all [wanted, afterDeclaration, afterAxis]

/-! ## Tokens that are read -/

/-- The token of a word at a place. -/
def Word.token (word : Word) (place : Position) : Token :=
  ⟨word.terminal, String.ofList word.chars, place⟩

/-- The rest of a text after a word. -/
def Word.after (word : Word) (place : Position) : Cursor :=
  ⟨place.advance word.chars, word.rest⟩

/-- The tokens that the reader finds in the rest of a text, and the program it makes of
them. -/
inductive Reads : Place → Cursor → List Token → List Declaration → Prop where
  | done {place : Place} {cursor : Cursor} {program : List Declaration} :
      cursor.skip.rest = [] → place.finish? = some program → Reads place cursor [] program
  | word {place next : Place} {cursor : Cursor} {word : Word} {tokens : List Token}
      {program : List Declaration} :
      nextWord place.wanted cursor.skip.rest = some word →
      place.step (word.token cursor.skip.place) = some next →
      Reads next (word.after cursor.skip.place) tokens program →
        Reads place cursor (word.token cursor.skip.place :: tokens) program

/-- The tokens that the reader finds between a place and a later one, where it stands
directly behind the last of their words. -/
inductive Reaches : Place → Cursor → List Token → Place → Cursor → Prop where
  | done {place : Place} {cursor : Cursor} : Reaches place cursor [] place cursor
  | word {place next final : Place} {cursor last : Cursor} {word : Word} {tokens : List Token} :
      nextWord place.wanted cursor.skip.rest = some word →
      place.step (word.token cursor.skip.place) = some next →
      Reaches next (word.after cursor.skip.place) tokens final last →
        Reaches place cursor (word.token cursor.skip.place :: tokens) final last

theorem chars_ne_nil_of_nextWord {wanted : List Terminal} {chars : List Char} {word : Word}
    (found : nextWord wanted chars = some word) : word.chars ≠ [] := by
  have spelled := (admits_of_nextWord found .start).spelled
  rw [Token.Spelled, String.toList_ofList] at spelled
  exact spelled.ne_nil

theorem ne_nil_of_nextWord {wanted : List Terminal} {chars : List Char} {word : Word}
    (found : nextWord wanted chars = some word) : chars ≠ [] := by
  rw [← nextWord_append found]
  exact List.append_ne_nil_of_left_ne_nil (chars_ne_nil_of_nextWord found) _

private theorem reads_of_readFrom {place : Place} {last : Position} {cursor : Cursor}
    {program : List Declaration} (accepted : readFrom place last cursor = .ok program) :
    ∃ tokens, Reads place cursor tokens program := by
  fun_induction readFrom place last cursor with
  | case1 place last cursor skipped other finished =>
      obtain rfl : other = program := Except.ok.inj accepted
      exact ⟨[], .done skipped finished⟩
  | case2 place last cursor skipped unfinished => exact absurd accepted (by simp)
  | case3 place last cursor c rest skipped missing => exact absurd accepted (by simp)
  | case4 => exact absurd accepted (by simp)
  | case5 place last cursor c rest skipped word found start token next stepped _ ih =>
      rcases ih accepted with ⟨tokens, reads⟩
      rw [← skipped] at found
      exact ⟨_, .word found stepped reads⟩

private theorem readFrom_of_reads {place : Place} {cursor : Cursor} {tokens : List Token}
    {program : List Declaration} (reads : Reads place cursor tokens program) (last : Position) :
    readFrom place last cursor = .ok program := by
  induction reads generalizing last with
  | done skipped finished =>
      rw [readFrom]
      split
      · rw [finished]
      · rename_i more
        exact absurd (skipped.symm.trans more) (by simp)
  | word found stepped _ ih =>
      rw [readFrom]
      split
      · rename_i nothing
        exact absurd nothing (ne_nil_of_nextWord found)
      · rename_i c rest skipped
        rw [skipped] at found
        split
        · rename_i missing
          exact absurd (missing.symm.trans found) (by simp)
        · rename_i other found'
          obtain rfl := Option.some.inj (found'.symm.trans found)
          simp only [Word.token] at stepped
          simp only [stepped]
          exact ih _

/-- The reader accepts what it makes a program of, and nothing else. -/
theorem readFrom_eq_ok_iff {place : Place} {last : Position} {cursor : Cursor}
    {program : List Declaration} :
    readFrom place last cursor = .ok program ↔ ∃ tokens, Reads place cursor tokens program := by
  constructor
  · exact reads_of_readFrom
  · rintro ⟨tokens, reads⟩
    exact readFrom_of_reads reads last

/-! ## What is read is a run over a text laid out from it -/

theorem Reaches.run {place final : Place} {cursor last : Cursor} {tokens : List Token}
    (reaches : Reaches place cursor tokens final last) : Run place tokens final := by
  induction reaches with
  | done => exact .done
  | word found stepped _ ih => exact .token (admits_of_nextWord found _) stepped ih

/-- The words of the text are those of the tokens; nothing but layout is left out. -/
theorem Reaches.laid {place final : Place} {cursor last : Cursor} {tokens others : List Token}
    (reaches : Reaches place cursor tokens final last)
    (rest : Laid (fun _ _ => True) others last.rest) :
    Laid (fun _ _ => True) (tokens ++ others) cursor.rest := by
  induction reaches with
  | done => exact rest
  | @word _ _ _ cursor _ word tokens found _ _ ih =>
      have whole : Laid (fun _ _ => True) (word.token cursor.skip.place :: (tokens ++ others))
          ((word.token cursor.skip.place).text.toList ++ word.rest) := .word trivial (ih rest)
      rw [Word.token, String.toList_ofList, nextWord_append found] at whole
      exact laid_of_skip whole

/-- A text is read up to its end, where the program is finished. -/
theorem Reads.reaches {place : Place} {cursor : Cursor} {tokens : List Token}
    {program : List Declaration} (reads : Reads place cursor tokens program) :
    ∃ final last, Reaches place cursor tokens final last ∧ last.skip.rest = [] ∧
      final.finish? = some program := by
  induction reads with
  | done ended finished => exact ⟨_, _, .done, ended, finished⟩
  | word found stepped _ ih =>
      rcases ih with ⟨final, last, reaches, ended, finished⟩
      exact ⟨final, last, .word found stepped reaches, ended, finished⟩

theorem Reads.run {place : Place} {cursor : Cursor} {tokens : List Token}
    {program : List Declaration} (reads : Reads place cursor tokens program) :
    ∃ final, Run place tokens final ∧ final.finish? = some program := by
  rcases reads.reaches with ⟨final, _, reaches, _, finished⟩
  exact ⟨final, reaches.run, finished⟩

/-- What no word follows is laid out from nothing. -/
theorem Cursor.laid_nil {joins : Token → List Char → Prop} {cursor : Cursor}
    (ended : cursor.skip.rest = []) : Laid joins [] cursor.rest := by
  apply laid_of_skip
  rw [ended]
  exact .done

theorem Reads.laid {place : Place} {cursor : Cursor} {tokens : List Token}
    {program : List Declaration} (reads : Reads place cursor tokens program) :
    Laid (fun _ _ => True) tokens cursor.rest := by
  rcases reads.reaches with ⟨final, last, reaches, ended, _⟩
  have whole := reaches.laid (Cursor.laid_nil ended)
  rwa [List.append_nil] at whole

/-- A text is read in one way only. -/
theorem Reads.unique {place : Place} {cursor : Cursor} {tokens others : List Token}
    {program other : List Declaration} (reads : Reads place cursor tokens program)
    (again : Reads place cursor others other) : tokens = others ∧ program = other := by
  induction reads generalizing others other with
  | done skipped finished =>
      cases again with
      | done _ finished' => exact ⟨rfl, Option.some.inj (finished.symm.trans finished')⟩
      | word found _ _ => exact absurd skipped (ne_nil_of_nextWord found)
  | word found stepped _ ih =>
      cases again with
      | done skipped _ => exact absurd skipped (ne_nil_of_nextWord found)
      | word found' stepped' rest =>
          obtain rfl := Option.some.inj (found.symm.trans found')
          obtain rfl := Option.some.inj (stepped.symm.trans stepped')
          rcases ih rest with ⟨rfl, rfl⟩
          exact ⟨rfl, rfl⟩

end Cellular
