import Cellular.Fault.Report
import Cellular.Proofs.Source.Completion
import Cellular.Proofs.Source.Partway
import Cellular.Proofs.Source.Positions
import Cellular.Proofs.Source.Sentences

/-!
# Texts that are rejected

A text is rejected at the first word that does not fit, and what stands before this word is
the beginning of a text that is accepted. So the report names a place in the text at which
what is reported stands, and up to which nothing is wrong. A text that is rejected at its end
is such a beginning as a whole, and the report names the place of its last word. This is so for
the grammar; with the integers a beginning is completed only if none of its own is too long, and
a whole program in which one is too long is rejected without a place.
-/

namespace Cellular

/-! ## Where reading stops -/

/-- Reading stops at a place in the program: at the end of the text, at a character with which
no word begins that is looked for, or at a word that does not fit. -/
inductive Stuck (place : Place) (last : Position) (cursor : Cursor) : ReadFault → Prop where
  | endOfText : cursor.skip.rest = [] → place.finish? = none →
      Stuck place last cursor ⟨.endOfText place.wanted, last⟩
  | character {c : Char} {rest : List Char} :
      cursor.skip.rest = c :: rest → nextWord place.wanted (c :: rest) = none →
      Stuck place last cursor ⟨unexpectedAt place.wanted c rest, cursor.skip.place⟩
  | word {word : Word} :
      nextWord place.wanted cursor.skip.rest = some word →
      place.step (word.token cursor.skip.place) = none →
      Stuck place last cursor ⟨.word (String.ofList word.chars) place.fitting, cursor.skip.place⟩

/-- The place of the last token, or a given one if there is none. -/
def lastPlace (tokens : List Token) (start : Position) : Position :=
  (tokens.getLast?.map Token.place).getD start

theorem lastPlace_cons (token : Token) (tokens : List Token) (start : Position) :
    lastPlace (token :: tokens) start = lastPlace tokens token.place := by
  rw [lastPlace, lastPlace, List.getLast?_cons, Option.map_some, Option.getD_some]
  cases tokens.getLast? <;> rfl

/-- Where reading stops no further token is found. -/
theorem Stuck.tokensFrom_eq {place : Place} {last : Position} {cursor : Cursor} {fault : ReadFault}
    (stuck : Stuck place last cursor fault) : tokensFrom place cursor = [] := by
  cases stuck with
  | endOfText ended _ => exact tokensFrom_of_ended ended
  | character stands missing => exact tokensFrom_of_missing (stands ▸ missing)
  | word found misfit => rw [tokensFrom_of_found found, misfit]

theorem exists_stuck {place : Place} {last : Position} {cursor : Cursor} {fault : ReadFault}
    (rejected : readFrom place last cursor = .error fault) :
    ∃ tokens final here, Reaches place cursor tokens final here ∧
      Stuck final (lastPlace tokens last) here fault := by
  fun_induction readFrom place last cursor with
  | case1 => exact absurd rejected (by simp)
  | case2 place last cursor skipped unfinished =>
      obtain rfl := Except.error.inj rejected
      exact ⟨[], place, cursor, .done, .endOfText skipped unfinished⟩
  | case3 place last cursor c rest skipped missing =>
      obtain rfl := Except.error.inj rejected
      exact ⟨[], place, cursor, .done, .character skipped missing⟩
  | case4 place last cursor c rest skipped word found start token misfit =>
      obtain rfl := Except.error.inj rejected
      rw [← skipped] at found
      exact ⟨[], place, cursor, .done, .word found misfit⟩
  | case5 place last cursor c rest skipped word found start token next stepped _ ih =>
      rcases ih rejected with ⟨tokens, final, here, reaches, stuck⟩
      rw [← skipped] at found
      refine ⟨_, final, here, .word found stepped reaches, ?_⟩
      rw [lastPlace_cons]
      exact stuck

/-! ## Beginnings of accepted texts -/

/-- What the reader has read by then is the beginning of an accepted text, with any part of
the layout behind it. -/
theorem Reaches.completed {before more lead : List Char} {tokens : List Token} {final : Place}
    {here : Cursor} (reaches : Reaches (.between []) ⟨.start, before ++ more⟩ tokens final here)
    (split : here.rest = lead ++ more) (isGap : Gap (lead ++ ['\n'])) :
    ∃ suffix others program,
      Reads (.between []) ⟨.start, before ++ suffix⟩ (tokens ++ others) program ∧
        AllShort others := by
  rcases final.completes with ⟨others, ended, program, run, finished, short⟩
  rcases reaches.exists_used with ⟨used, whole, _, exchange⟩
  have before_eq : before = used ++ lead := by
    rw [split, ← List.append_assoc] at whole
    exact List.append_cancel_right whole
  have resumes : Resumes here.rest (lead ++ '\n' :: (spaced others).toList) := by
    rw [split]
    cases lead with
    | nil => exact Or.inr (breaks_blank rfl _)
    | cons _ _ => exact Or.inl rfl
  have laid : Laid Apart others
      (⟨here.place, lead ++ '\n' :: (spaced others).toList⟩ : Cursor).rest := by
    rw [List.append_cons]
    exact isGap.laid (laid_spaced others)
  rcases run.reads finished rfl laid with ⟨found, read, reads, same, _⟩
  refine ⟨'\n' :: (spaced others).toList, found, read, ?_, short.of_anchored same⟩
  rw [before_eq, List.append_assoc]
  exact (exchange _ resumes).reads reads

/-- A text of the grammar. -/
def IsProgram (source : String) : Prop :=
  ∃ program, readProgram source = .ok program

/-- A text that is read with its integers. -/
def IsAccepted (source : String) : Prop :=
  ∃ program, readSource source = .ok program

/-- Which texts can be meant where a reading finds some tokens: those of the grammar, and if
none of the tokens is too long, also those that are accepted. -/
def Fits (tokens : List Token) (good : String → Prop) : Prop :=
  good = IsProgram ∨ good = IsAccepted ∧ AllShort tokens

/-- A text that can be completed to a good one. -/
def Completable (good : String → Prop) (text : List Char) : Prop :=
  ∃ suffix, good (String.ofList (text ++ suffix))

theorem Reads.good {good : String → Prop} {text : List Char} {tokens others : List Token}
    {program : List Declaration}
    (reads : Reads (.between []) ⟨.start, text⟩ (tokens ++ others) program)
    (short : AllShort others) (fits : Fits tokens good) : good (String.ofList text) := by
  rw [← String.toList_ofList (l := text)] at reads
  rcases fits with rfl | ⟨rfl, shorter⟩
  · exact ⟨program, readFrom_eq_ok_iff.mpr ⟨_, reads⟩⟩
  · exact ⟨program, readSource_eq_ok_iff.mpr ⟨_, reads, AllShort.append_iff.mpr ⟨shorter, short⟩⟩⟩

/-! ## Reports -/

/-- What is reported stands at the place that is reported, and before it stands the beginning
of a good text. -/
def ReportedAt (good : String → Prop) (source : List Char) (place : Position)
    (reported : List Char) : Prop :=
  ∃ before after, source = before ++ reported ++ after ∧ reported ≠ [] ∧
    place = Position.start.advance before ∧ Completable good before

/-- The text is the beginning of a good text, whose first words it holds. The place is that of
the last of them, behind which only layout is left. -/
structure BreaksOff (good : String → Prop) (source : List Char) (place : Position)
    (tokens : List Token) : Prop where
  laid : Laid (fun _ _ => True) tokens source
  completed : ∃ suffix others program,
    Reads (.between []) ⟨.start, source ++ suffix⟩ (tokens ++ others) program ∧
      good (String.ofList (source ++ suffix))
  none : tokens = [] → place = .start
  last : ∀ token ∈ tokens.getLast?, place = token.place ∧
    ∃ before after, source = before ++ token.text.toList ++ after ∧
      place = Position.start.advance before ∧ Laid (fun _ _ => True) [] after

/-- Where a report of a rejected text belongs. -/
def ReadFault.Justified (fault : ReadFault) (good : String → Prop) (source : List Char) : Prop :=
  match fault.unexpected with
  | .character c => ReportedAt good source fault.place [c]
  | .word text _ => ReportedAt good source fault.place text.toList
  | .endOfText _ => ∃ tokens, BreaksOff good source fault.place tokens

section Stops

variable {good : String → Prop} {source : List Char} {tokens : List Token} {final : Place}
  {here : Cursor}

/-- What stands behind the layout where the reader stops may be reported there. -/
theorem Reaches.reportedAt
    (reaches : Reaches (.between []) ⟨.start, source⟩ tokens final here) {reported rest : List Char}
    (stands : here.skip.rest = reported ++ rest) (nonempty : reported ≠ [])
    (fits : Fits tokens good) : ReportedAt good source here.skip.place reported := by
  have more : here.skip.rest ≠ [] := by
    rw [stands]
    exact List.append_ne_nil_of_left_ne_nil nonempty rest
  rcases reaches.exists_before more with ⟨before, gap, whole, moved, split, isGap⟩
  have source_eq : source = before ++ here.skip.rest := whole
  rw [source_eq] at reaches
  rcases reaches.completed split (isGap.append (.blank rfl .nil)) with
    ⟨suffix, others, program, reads, short⟩
  refine ⟨before, rest, ?_, nonempty, moved, suffix, reads.good short fits⟩
  rw [source_eq, stands, List.append_assoc]

theorem Reaches.breaksOff (reaches : Reaches (.between []) ⟨.start, source⟩ tokens final here)
    (ended : here.skip.rest = []) (fits : Fits tokens good) :
    BreaksOff good source (lastPlace tokens .start) tokens where
  laid := by
    have whole := reaches.laid (Cursor.laid_nil ended)
    rwa [List.append_nil] at whole
  completed := by
    rw [← List.append_nil source] at reaches
    rcases reaches.completed (List.append_nil _).symm (Cursor.gap_of_ended ended) with
      ⟨suffix, others, program, reads, short⟩
    exact ⟨suffix, others, program, reads, reads.good short fits⟩
  none := by
    rintro rfl
    rfl
  last token isLast := by
    rw [lastPlace, Option.mem_def.mp isLast, Option.map_some, Option.getD_some]
    rcases List.getLast?_eq_some_iff.mp isLast with ⟨first, rfl⟩
    rcases reaches.split with ⟨middle, there, word, next, before, found, rfl, _, behind⟩
    rcases before.exists_before (ne_nil_of_nextWord found) with ⟨chars, _, whole, moved, _⟩
    refine ⟨rfl, chars, word.rest, ?_, moved, ?_⟩
    · have source_eq : source = chars ++ there.skip.rest := whole
      rw [source_eq, ← nextWord_append found, Word.token, String.toList_ofList, List.append_assoc]
    · cases behind with
      | done => exact Cursor.laid_nil ended

theorem Stuck.justified {fault : ReadFault}
    (stuck : Stuck final (lastPlace tokens .start) here fault)
    (reaches : Reaches (.between []) ⟨.start, source⟩ tokens final here)
    (fits : Fits tokens good) : fault.Justified good source := by
  cases stuck with
  | endOfText ended _ => exact ⟨tokens, reaches.breaksOff ended fits⟩
  | @character c rest stands _ =>
      rw [ReadFault.Justified, unexpectedAt]
      cases found : nextWord Terminal.all (c :: rest) with
      | none => exact reaches.reportedAt stands (List.cons_ne_nil c []) fits
      | some word =>
          rw [← stands] at found
          simp only [String.toList_ofList]
          exact reaches.reportedAt (nextWord_append found).symm (chars_ne_nil_of_nextWord found)
            fits
  | word found _ =>
      simp only [ReadFault.Justified, String.toList_ofList]
      exact reaches.reportedAt (nextWord_append found).symm (chars_ne_nil_of_nextWord found) fits

theorem ReportedAt.inside {reported : List Char} {place : Position}
    (reportedAt : ReportedAt good source place reported) : place.Inside source := by
  rcases reportedAt with ⟨before, after, rfl, _, rfl, _⟩
  rw [List.append_assoc]
  exact Position.inside_advance before _

theorem BreaksOff.inside {place : Position} (breaksOff : BreaksOff good source place tokens) :
    place.Inside source := by
  cases ends : tokens.getLast? with
  | none =>
      rw [breaksOff.none (List.getLast?_eq_none_iff.mp ends)]
      exact Position.inside_advance [] source
  | some token =>
      rcases (breaksOff.last token ends).2 with ⟨before, after, rfl, rfl, _⟩
      rw [List.append_assoc]
      exact Position.inside_advance before _

theorem ReadFault.Justified.inside {fault : ReadFault} (justified : fault.Justified good source) :
    fault.place.Inside source := by
  rw [Justified] at justified
  split at justified
  · exact justified.inside
  · exact justified.inside
  · rcases justified with ⟨_, breaksOff⟩
    exact breaksOff.inside

end Stops

/-- A text that is no program is reported at a place inside it, with the line and the column of
the place. An unexpected word or character stands there, and what is before it can be completed.
If the text only ends too early, the whole of it can be completed, and its last word is reported.
It is completed to a text of the grammar, and to one that is accepted if none of the integers that
were read is too long. All other texts that are rejected are programs in which an integer is too
long. -/
theorem readSource_rejected (source : String) :
    (∀ fault, readSource source = .error (.fault fault) →
      fault.place.Inside source.toList ∧ fault.Justified IsProgram source.toList ∧
        (AllShort (sourceTokens source) → fault.Justified IsAccepted source.toList) ∧
        fault.report = .source ⟨fault.unexpected.message, some fault.place.line,
          some fault.place.column⟩) ∧
    ∀ token, readSource source = .error (.overlong token) ↔
      IsProgram source ∧ (sourceTokens source).find? Token.isOverlong = some token := by
  constructor
  · intro fault rejected
    rcases exists_stuck (readSource_eq_fault_iff.mp rejected) with
      ⟨tokens, final, here, reaches, stuck⟩
    have found : sourceTokens source = tokens := by
      rw [sourceTokens, reaches.tokensFrom_eq, stuck.tokensFrom_eq, List.append_nil]
    have justified := stuck.justified reaches (.inl rfl)
    rw [found]
    exact ⟨justified.inside, justified, fun short => stuck.justified reaches (.inr ⟨rfl, short⟩),
      rfl⟩
  · intro token
    constructor
    · intro failed
      rcases readSource_eq_overlong_iff.mp failed with ⟨tokens, program, reads, found⟩
      rw [reads.sourceTokens_eq]
      exact ⟨⟨program, readFrom_eq_ok_iff.mpr ⟨tokens, reads⟩⟩, found⟩
    · rintro ⟨⟨program, accepted⟩, found⟩
      rcases readFrom_eq_ok_iff.mp accepted with ⟨tokens, reads⟩
      rw [reads.sourceTokens_eq] at found
      exact readSource_eq_overlong_iff.mpr ⟨tokens, program, reads, found⟩

/-- An equality sign where `:=` should stand, behind an integer. -/
theorem readSource_rejected_equal :
    readSource "e:=1D::(x=7)\nb =wrap" = .error (.fault ⟨.word "=" [.mark .assign], ⟨2, 3⟩⟩) ∧
      Position.Inside ⟨2, 3⟩ "e:=1D::(x=7)\nb =wrap".toList ∧
        ReportedAt IsAccepted "e:=1D::(x=7)\nb =wrap".toList ⟨2, 3⟩ "=".toList := by
  have rejected : readSource "e:=1D::(x=7)\nb =wrap" =
      .error (.fault ⟨.word "=" [.mark .assign], ⟨2, 3⟩⟩) := by
    rw [readSource_eq_fault_iff]
    decide +kernel
  have short : AllShort (sourceTokens "e:=1D::(x=7)\nb =wrap") := by
    unfold AllShort
    decide +kernel
  rcases (readSource_rejected _).1 _ rejected with ⟨inside, _, justified, _⟩
  exact ⟨rejected, inside, justified short⟩

/-- A text that is rejected without a place, because its integer has too many digits. -/
theorem readSource_sizedTokens_longLiteral :
    (∃ found, readSource (spaced (sizedTokens longLiteral)) = .error (.overlong found)) ∧
      ∀ fault, readSource (spaced (sizedTokens longLiteral)) ≠ .error (.fault fault) := by
  rcases (sentence_sizedTokens longLiteral).run (plain_sizedTokens longLiteral_spelled) with
    ⟨final, run, finished⟩
  rcases run.readSource_of_overlong finished (laid_spaced _)
    (find?_isOverlong_sizedTokens longLiteral_isOverlong) with ⟨found, failed, _⟩
  refine ⟨⟨found, failed⟩, ?_⟩
  rw [failed]
  exact fun fault same => absurd (Except.error.inj same) nofun

end Cellular
