import Cellular.Proofs.Source.Derived
import Cellular.Proofs.Source.Partway
import Cellular.Proofs.Source.Positions

/-!
# Texts one below the other

Two texts that are accepted can be put one below the other. The first is read as before; and
whatever it ends with, even an open comment or a declaration that might go on, the reader goes
on with the second as it would begin with it. So the program is that of the first text and
then that of the second, whose names are as many lines further down as the first text has.
-/

namespace Cellular

/-! ## Lower lines -/

/-- The name as many lines further down. -/
def Name.lowered (n : Nat) (name : Name) : Name :=
  { name with place := name.place.map (Position.lowered n) }

/-- The token as many lines further down. -/
def Token.lowered (n : Nat) (token : Token) : Token :=
  { token with place := token.place.lowered n }

/-- The rest of a text as many lines further down. -/
def Cursor.lowered (n : Nat) (cursor : Cursor) : Cursor :=
  { cursor with place := cursor.place.lowered n }

theorem skipLayout_lowered (n : Nat) (inComment : Bool) (place : Position) (chars : List Char) :
    skipLayout inComment (place.lowered n) chars =
      (skipLayout inComment place chars).lowered n := by
  induction chars generalizing inComment place with
  | nil => rfl
  | cons c rest ih =>
      rw [skipLayout, skipLayout, ← Position.lowered_next]
      split
      · exact ih ..
      · split
        · exact ih ..
        · split
          · exact ih ..
          · rfl

theorem Word.after_lowered (word : Word) (n : Nat) (place : Position) :
    word.after (place.lowered n) = (word.after place).lowered n := by
  rw [after, ← Position.lowered_advance]
  rfl

/-- A text is read alike further down and behind other declarations. -/
theorem Reads.lowered {place : Place} {cursor : Cursor} {tokens : List Token}
    {program : List Declaration} (reads : Reads place cursor tokens program) (n : Nat)
    (before : List Declaration) :
    Reads (place.carried (Name.lowered n) before) (cursor.lowered n)
      (tokens.map (Token.lowered n))
      (before.reverse ++ program.map (Declaration.map (Name.lowered n))) := by
  induction reads with
  | @done place cursor program ended finished =>
      apply Reads.done
      · rw [Cursor.skip, Cursor.lowered, skipLayout_lowered]
        exact ended
      · rw [Place.finish?_carried, finished, Option.map_some]
  | @word place next cursor word tokens program found stepped _ ih =>
      have skipped : (cursor.lowered n).skip = cursor.skip.lowered n := skipLayout_lowered ..
      have same : (word.token cursor.skip.place).Carried (Name.lowered n)
          (word.token (cursor.skip.place.lowered n)) := ⟨rfl, rfl, rfl⟩
      have stepped' : (place.carried (Name.lowered n) before).step
          (word.token (cursor.skip.place.lowered n)) =
            some (next.carried (Name.lowered n) before) := by
        rw [Place.step_carried same, stepped, Option.map_some]
      rw [← Word.after_lowered] at ih
      have found' : nextWord (place.carried (Name.lowered n) before).wanted
          (cursor.lowered n).skip.rest = some word := by
        rw [skipped, Place.wanted_carried]
        exact found
      have whole := Reads.word found' (by rw [skipped]; exact stepped') (by rw [skipped]; exact ih)
      rw [skipped] at whole
      exact whole

/-! ## Between declarations -/

/-- Where a program may end, it goes on as it would behind finished declarations. -/
theorem Reads.of_between {place : Place} {cursor : Cursor} {tokens : List Token}
    {first program : List Declaration} (finished : place.finish? = some first)
    (reads : Reads (.between first.reverse) cursor tokens program) :
    Reads place cursor tokens program := by
  have ends := Place.ends_of_finish? finished
  cases reads with
  | done ended known =>
      rw [Place.finish?, List.reverse_reverse] at known
      exact .done ended (finished.trans known)
  | @word _ next _ word tokens _ found stepped rest =>
      have admits := admits_of_nextWord found cursor.skip.place
      have isKey : (word.token cursor.skip.place).IsKey := by
        have sought := admits.sought
        simpa [Place.wanted, Place.afterDeclaration, Token.IsKey, Word.token] using sought
      have further := ends.further _ isKey
      have admits' : Admits place.wanted (word.token cursor.skip.place) := by
        refine ⟨Place.wanted_of_step further, admits.spelled, ?_⟩
        intro isName k sought
        rw [ends.wanted k sought]
        exact admits.ordinary isName .neighborhood (by simp [Place.wanted, Place.afterDeclaration])
      have behind : EndsBefore place.wanted (word.token cursor.skip.place) word.rest := by
        cases Place.ends_of_nextWord found cursor.skip.place with
        | stops stops => exact .stops stops
        | keyword _ nameless =>
            exact absurd (by simp [Place.wanted, Place.afterDeclaration]) nameless
        | comparison isComparison symbol two => exact .comparison isComparison symbol two
      have found' : nextWord place.wanted cursor.skip.rest = some word := by
        have again := nextWord_of_ends place.orderly admits' behind
        rwa [Word.token, String.toList_ofList, nextWord_append found] at again
      have same := ((Place.between_ends first.reverse).further _ isKey).symm.trans stepped
      obtain rfl := Option.some.inj same
      exact .word found' further rest

/-- A text behind another is read as it is alone, on lower lines. -/
theorem Reads.append {first second : List Char} {tokens others : List Token}
    {program further : List Declaration}
    (reads : Reads (.between []) ⟨.start, first⟩ tokens program)
    (below : Reads (.between []) ⟨.start, second⟩ others further) :
    Reads (.between []) ⟨.start, first ++ '\n' :: second⟩
      (tokens ++ others.map (Token.lowered (first.count '\n' + 1)))
      (program ++ further.map (Declaration.map (Name.lowered (first.count '\n' + 1)))) := by
  rcases reads.reaches with ⟨final, last, reaches, ended, finished⟩
  rcases reaches.exists_used with ⟨used, whole, moved, exchange⟩
  have text_eq : first = used ++ last.rest := whole
  have resumes : Resumes last.rest (last.rest ++ '\n' :: second) := by
    cases last.rest with
    | nil => exact Or.inr (breaks_blank rfl second)
    | cons _ _ => exact Or.inl rfl
  have lowered := below.lowered (first.count '\n' + 1) program.reverse
  rw [List.reverse_reverse] at lowered
  have skipped : (⟨last.place, last.rest ++ '\n' :: second⟩ : Cursor).skip =
      (Cursor.lowered (first.count '\n' + 1) ⟨.start, second⟩).skip := by
    rw [Cursor.skip, List.append_cons, skipLayout_gap (Cursor.gap_of_ended ended), moved,
      ← Position.advance_append, ← List.append_assoc, ← text_eq, Position.advance_newline]
    rfl
  have rest := (lowered.of_between finished).of_skip skipped
  rw [text_eq, List.append_assoc, ← text_eq]
  exact (exchange _ resumes).reads rest

/-- Two accepted texts, one below the other, are accepted as the program of the first and the
program of the second. The names of the first stay where they are, and those of the second keep
their columns. -/
theorem readProgram_below {first second : String} {program further : List Declaration}
    (above : readProgram first = .ok program) (below : readProgram second = .ok further) :
    readProgram (first ++ "\n" ++ second) =
      .ok (program ++
        further.map (Declaration.map (Name.lowered (first.toList.count '\n' + 1)))) := by
  rcases readFrom_eq_ok_iff.mp above with ⟨tokens, reads⟩
  rcases readFrom_eq_ok_iff.mp below with ⟨others, reads'⟩
  have text : (first ++ "\n" ++ second).toList = first.toList ++ '\n' :: second.toList := by
    simp [String.toList_append]
  rw [readProgram, text]
  exact readFrom_eq_ok_iff.mpr ⟨_, reads.append reads'⟩

/-- A boundary that might go on, and a comment that is open. -/
theorem readProgram_below_static :
    readProgram "b:=static // walls" = .ok [⟨⟨"b", some ⟨1, 1⟩⟩, .boundary (.static none)⟩] ∧
      readProgram " n:=MOORE" = .ok [⟨⟨"n", some ⟨1, 2⟩⟩, .neighborhood .moore⟩] ∧
        readProgram "b:=static // walls\n n:=MOORE" =
          .ok [⟨⟨"b", some ⟨1, 1⟩⟩, .boundary (.static none)⟩,
            ⟨⟨"n", some ⟨2, 2⟩⟩, .neighborhood .moore⟩] := by
  have above : readProgram "b:=static // walls" =
      .ok [⟨⟨"b", some ⟨1, 1⟩⟩, .boundary (.static none)⟩] := by decide +kernel
  have below : readProgram " n:=MOORE" =
      .ok [⟨⟨"n", some ⟨1, 2⟩⟩, .neighborhood .moore⟩] := by decide +kernel
  exact ⟨above, below, readProgram_below above below⟩

end Cellular
