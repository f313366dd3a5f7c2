import Cellular.Proofs.Source.Partway
import Cellular.Source.Literal

/-!
# Texts whose integers can be read

A text is read with its integers if it is a program and none of its integers is too long. The
tokens that are looked through for one that is too long are those that reading the program
finds; so the two can be told from one reading, and depend on the words of the text only.
-/

namespace Cellular

/-! ## Short integers -/

/-- None of some tokens is an integer that is too long. -/
def AllShort (tokens : List Token) : Prop :=
  ∀ token ∈ tokens, token.isOverlong = false

theorem AllShort.append_iff {before tokens : List Token} :
    AllShort (before ++ tokens) ↔ AllShort before ∧ AllShort tokens :=
  List.forall_mem_append

theorem find?_isOverlong_eq_none_iff {tokens : List Token} :
    tokens.find? Token.isOverlong = none ↔ AllShort tokens := by
  simp only [List.find?_eq_none, Bool.not_eq_true, AllShort]

/-- The first integer that is too long does not depend on the places of the tokens. -/
theorem find?_isOverlong_anchored (tokens : List Token) :
    (tokens.map Token.anchored).find? Token.isOverlong =
      (tokens.find? Token.isOverlong).map Token.anchored :=
  List.find?_map

/-- Tokens that are the same but for their places are short together. -/
theorem AllShort.of_anchored {tokens others : List Token}
    (same : others.map Token.anchored = tokens.map Token.anchored) (short : AllShort tokens) :
    AllShort others := by
  have none := congrArg (List.find? Token.isOverlong) same
  rw [find?_isOverlong_anchored, find?_isOverlong_anchored,
    find?_isOverlong_eq_none_iff.mpr short] at none
  exact find?_isOverlong_eq_none_iff.mp (Option.map_eq_none_iff.mp none)

/-! ## The tokens of a text -/

section Tokens

variable {place next final : Place} {cursor last : Cursor} {tokens : List Token}

theorem tokensFrom_of_ended (ended : cursor.skip.rest = []) : tokensFrom place cursor = [] := by
  rw [tokensFrom]
  split
  · rfl
  · rename_i more
    exact absurd (ended.symm.trans more) (by simp)

theorem tokensFrom_of_missing (missing : nextWord place.wanted cursor.skip.rest = none) :
    tokensFrom place cursor = [] := by
  rw [tokensFrom]
  split
  · rfl
  · rename_i c rest skipped
    rw [skipped] at missing
    split
    · rfl
    · rename_i word found
      exact absurd (missing.symm.trans found) (by simp)

theorem tokensFrom_of_found {word : Word}
    (found : nextWord place.wanted cursor.skip.rest = some word) :
    tokensFrom place cursor = match place.step (word.token cursor.skip.place) with
      | none => []
      | some next => word.token cursor.skip.place ::
          tokensFrom next (word.after cursor.skip.place) := by
  rw [tokensFrom]
  split
  · rename_i nothing
    exact absurd nothing (ne_nil_of_nextWord found)
  · rename_i c rest skipped
    rw [skipped] at found
    split
    · rename_i missing
      exact absurd (missing.symm.trans found) (by simp)
    · rename_i other found'
      obtain rfl := Option.some.inj (found'.symm.trans found)
      rfl

/-- The tokens up to a later place are followed by those from there on. -/
theorem Reaches.tokensFrom_eq (reaches : Reaches place cursor tokens final last) :
    tokensFrom place cursor = tokens ++ tokensFrom final last := by
  induction reaches with
  | done => rfl
  | word found stepped _ ih =>
      rw [tokensFrom_of_found found, stepped]
      exact congrArg (List.cons _) ih

theorem Reads.tokensFrom_eq {program : List Declaration}
    (reads : Reads place cursor tokens program) : tokensFrom place cursor = tokens := by
  rcases reads.reaches with ⟨final, last, reaches, ended, _⟩
  rw [reaches.tokensFrom_eq, tokensFrom_of_ended ended, List.append_nil]

end Tokens

/-! ## Reading with the integers -/

section Sources

variable {source : String} {tokens : List Token} {program : List Declaration}

theorem Reads.sourceTokens_eq (reads : Reads (.between []) ⟨.start, source.toList⟩ tokens program) :
    sourceTokens source = tokens :=
  reads.tokensFrom_eq

theorem Reads.overlongLiteral?_eq
    (reads : Reads (.between []) ⟨.start, source.toList⟩ tokens program) :
    overlongLiteral? source = tokens.find? Token.isOverlong := by
  have accepted : readProgram source = .ok program := readFrom_eq_ok_iff.mpr ⟨tokens, reads⟩
  rw [overlongLiteral?, accepted, reads.sourceTokens_eq]

theorem Reads.readSource_eq
    (reads : Reads (.between []) ⟨.start, source.toList⟩ tokens program) :
    readSource source = match tokens.find? Token.isOverlong with
      | some token => .error (.overlong token)
      | none => .ok program := by
  have accepted : readProgram source = .ok program := readFrom_eq_ok_iff.mpr ⟨tokens, reads⟩
  rw [readSource, withLiterals, reads.overlongLiteral?_eq, accepted]
  rfl

/-- What is no program is rejected as it was, whatever its integers are. -/
theorem readSource_of_readProgram_eq_error {fault : ReadFault}
    (rejected : readProgram source = .error fault) : readSource source = .error (.fault fault) := by
  rw [readSource, withLiterals, overlongLiteral?, rejected]
  rfl

/-- A text is no program, or its tokens decide whether it is read. -/
theorem readSource_cases (source : String) :
    (∃ fault, readProgram source = .error fault ∧
      readSource source = .error (.fault fault)) ∨
    ∃ tokens program, Reads (.between []) ⟨.start, source.toList⟩ tokens program ∧
      readSource source = match tokens.find? Token.isOverlong with
        | some token => .error (.overlong token)
        | none => .ok program := by
  cases known : readProgram source with
  | error fault => exact Or.inl ⟨fault, rfl, readSource_of_readProgram_eq_error known⟩
  | ok program =>
      rcases readFrom_eq_ok_iff.mp known with ⟨tokens, reads⟩
      exact Or.inr ⟨tokens, program, reads, reads.readSource_eq⟩

/-- A text is read if it is a program whose integers are short. -/
theorem readSource_eq_ok_iff :
    readSource source = .ok program ↔
      ∃ tokens, Reads (.between []) ⟨.start, source.toList⟩ tokens program ∧ AllShort tokens := by
  constructor
  · intro accepted
    rcases readSource_cases source with ⟨fault, _, rejected⟩ | ⟨tokens, read, reads, decided⟩
    · exact absurd (accepted.symm.trans rejected) nofun
    · rw [accepted] at decided
      split at decided
      · exact absurd decided nofun
      · rename_i none
        obtain rfl := Except.ok.inj decided
        exact ⟨tokens, reads, find?_isOverlong_eq_none_iff.mp none⟩
  · rintro ⟨tokens, reads, short⟩
    rw [reads.readSource_eq, find?_isOverlong_eq_none_iff.mpr short]

/-- An integer is too long if it is the first that is, in a text that is a program. -/
theorem readSource_eq_overlong_iff {token : Token} :
    readSource source = .error (.overlong token) ↔ ∃ tokens program,
      Reads (.between []) ⟨.start, source.toList⟩ tokens program ∧
        tokens.find? Token.isOverlong = some token := by
  constructor
  · intro failed
    rcases readSource_cases source with ⟨fault, _, rejected⟩ | ⟨tokens, read, reads, decided⟩
    · exact absurd (failed.symm.trans rejected) (by simp)
    · rw [failed] at decided
      split at decided
      · rename_i found
        cases decided
        exact ⟨tokens, read, reads, found⟩
      · exact absurd decided nofun
  · rintro ⟨tokens, program, reads, found⟩
    rw [reads.readSource_eq, found]

/-- Every other failure is one to read the program. -/
theorem readSource_eq_fault_iff {fault : ReadFault} :
    readSource source = .error (.fault fault) ↔ readProgram source = .error fault := by
  constructor
  · intro rejected
    rcases readSource_cases source with ⟨other, known, rejected'⟩ | ⟨tokens, read, reads, decided⟩
    · cases rejected.symm.trans rejected'
      exact known
    · rw [rejected] at decided
      split at decided <;> exact absurd decided (by simp)
  · exact readSource_of_readProgram_eq_error

/-! ## Texts laid out from runs -/

variable {final : Place}

/-- A text laid out from a run with short integers is read as the program of the run. -/
theorem Run.readSource_of_allShort (run : Run (.between []) tokens final)
    (finished : final.finish? = some program) (laid : Laid Apart tokens source.toList)
    (short : AllShort tokens) :
    ∃ read, readSource source = .ok read ∧
      read.map Declaration.anchored = program.map Declaration.anchored := by
  have whole : Laid Apart tokens (⟨.start, source.toList⟩ : Cursor).rest := laid
  rcases run.reads finished rfl whole with ⟨found, read, reads, sameTokens, same⟩
  exact ⟨read, readSource_eq_ok_iff.mpr ⟨found, reads, short.of_anchored sameTokens⟩, same⟩

/-- A text laid out from a run fails at the first integer of the run that is too long. -/
theorem Run.readSource_of_overlong (run : Run (.between []) tokens final)
    (finished : final.finish? = some program) (laid : Laid Apart tokens source.toList)
    {token : Token} (overlong : tokens.find? Token.isOverlong = some token) :
    ∃ found, readSource source = .error (.overlong found) ∧ found.anchored = token.anchored := by
  have whole : Laid Apart tokens (⟨.start, source.toList⟩ : Cursor).rest := laid
  rcases run.reads finished rfl whole with ⟨others, read, reads, sameTokens, _⟩
  have moved := congrArg (List.find? Token.isOverlong) sameTokens
  rw [find?_isOverlong_anchored, find?_isOverlong_anchored, overlong] at moved
  rcases Option.map_eq_some_iff.mp moved with ⟨found, isFound, same⟩
  exact ⟨found, readSource_eq_overlong_iff.mpr ⟨others, read, reads, isFound⟩, same⟩

end Sources

end Cellular
