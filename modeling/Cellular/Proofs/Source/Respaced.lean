import Cellular.Proofs.Source.Partway
import Cellular.Proofs.Source.Positions

/-!
# Other layout

A text that is accepted may be laid out differently. Between its words, blanks and comments
can be put in anywhere, even where two words touch, and those that are there can be exchanged
for others: the same tokens are found, and the same program is made of them, but for the
places of its names.
-/

namespace Cellular

/-- A cut of a text that goes through no word and no comment: at its beginning or its end,
directly before or behind a word, or behind the layout that follows such a place. -/
inductive Seam (tokens : List Token) : List Char → List Char → Prop where
  | start {after : List Char} : Seam tokens [] after
  | finish {before : List Char} : Seam tokens before []
  | before {token : Token} {chars after : List Char} :
      token ∈ tokens → token.place = Position.start.advance chars → Seam tokens chars after
  | behind {token : Token} {chars after : List Char} :
      token ∈ tokens → token.place = Position.start.advance chars →
        Seam tokens (chars ++ token.text.toList) after
  | layout {before gap after : List Char} :
      Seam tokens before (gap ++ after) → Gap gap → Seam tokens (before ++ gap) after

/-! ## Cursors at seams -/

/-- On its way through a text the reader stands in the layout that the first part of the text
ends with. At the end of the text this may be an open comment. -/
inductive Cuts (tokens : List Token) (program : List Declaration) (before after : List Char) :
    Prop where
  | mk {first second : List Token} {middle : Place} {here : Cursor} {used lead : List Char} :
      tokens = first ++ second → Reads middle here second program → before = used ++ lead →
      here.rest = lead ++ after → (Gap lead ∨ after = [] ∧ here.skip.rest = []) →
      (∀ other, Resumes here.rest other →
        Reaches (.between []) ⟨.start, used ++ other⟩ first middle ⟨here.place, other⟩) →
      Cuts tokens program before after

section Seams

variable {tokens : List Token} {program : List Declaration} {before after : List Char}

/-- The reader stands at every point between two tokens. -/
theorem Reaches.cuts {first second : List Token} {middle : Place} {here : Cursor}
    {gap : List Char}
    (reaches : Reaches (.between []) ⟨.start, before ++ after⟩ first middle here)
    (reads : Reads middle here second program) (split : here.rest = gap ++ after)
    (lead : Gap gap ∨ after = [] ∧ here.skip.rest = []) :
    Cuts (first ++ second) program before after := by
  rcases reaches.exists_used with ⟨used, whole, _, exchange⟩
  have before_eq : before = used ++ gap := by
    rw [split, ← List.append_assoc] at whole
    exact List.append_cancel_right whole
  exact .mk rfl reads before_eq split lead exchange

/-- The reader stands before every token, and behind it. -/
theorem Reads.cuts_of_mem {token : Token} {chars rest : List Char}
    (reads : Reads (.between []) ⟨.start, chars ++ rest⟩ tokens program) (member : token ∈ tokens)
    (stands : token.place = Position.start.advance chars) :
    Cuts tokens program chars rest ∧
      ∀ after, rest = token.text.toList ++ after →
        Cuts tokens program (chars ++ token.text.toList) after := by
  rcases reads.exists_of_mem member with
    ⟨first, second, middle, here, word, next, rfl, reaches, found, rfl, stepped, others⟩
  rcases reaches.exists_before (ne_nil_of_nextWord found) with
    ⟨before, gap, whole, moved, split, isGap⟩
  have chars_eq : chars = before :=
    Position.advance_injective whole (stands.symm.trans moved)
  rw [chars_eq] at whole reaches ⊢
  have rest_eq : here.skip.rest = rest := (List.append_cancel_left whole).symm
  constructor
  · apply reaches.cuts (.word found stepped others) _ (Or.inl isGap)
    rw [split, rest_eq]
  · rintro after rfl
    have text : (word.token here.skip.place).text.toList = word.chars := String.toList_ofList
    have after_eq : word.rest = after := by
      rw [← nextWord_append found, text] at rest_eq
      exact List.append_cancel_left rest_eq
    have behind := reaches.trans (.word found stepped .done)
    rw [← List.append_assoc] at behind
    have split' : (word.after here.skip.place).rest = [] ++ after := after_eq
    rw [List.append_cons]
    exact behind.cuts others split' (Or.inl .nil)

theorem Seam.cuts (seam : Seam tokens before after)
    (reads : Reads (.between []) ⟨.start, before ++ after⟩ tokens program) :
    Cuts tokens program before after := by
  induction seam with
  | @start after =>
      have begun : Reaches (.between []) ⟨.start, [] ++ after⟩ [] (.between []) ⟨.start, after⟩ :=
        .done
      have split : (⟨.start, after⟩ : Cursor).rest = [] ++ after := rfl
      exact begun.cuts reads split (Or.inl .nil)
  | finish =>
      rcases reads.reaches with ⟨final, last, reaches, ended, finished⟩
      have cut := reaches.cuts (.done ended finished) (List.append_nil _).symm
        (Or.inr ⟨rfl, ended⟩)
      rwa [List.append_nil] at cut
  | before member stands => exact (reads.cuts_of_mem member stands).1
  | behind member stands =>
      rw [List.append_assoc] at reads
      exact (reads.cuts_of_mem member stands).2 _ rfl
  | @layout before gap after _ isGap ih =>
      rw [List.append_assoc] at reads
      rcases ih reads with @⟨first, second, middle, here, used, lead, rfl, others, rfl, split,
        isLead, exchange⟩
      have isLead' : Gap (lead ++ gap) ∨ after = [] ∧ here.skip.rest = [] := by
        rcases isLead with isLead | ⟨nothing, ended⟩
        · exact Or.inl (isLead.append isGap)
        · exact Or.inr ⟨(List.append_eq_nil_iff.mp nothing).2, ended⟩
      refine .mk rfl others (List.append_assoc ..) ?_ isLead' exchange
      rw [split, List.append_assoc]

/-- Behind a gap, other layout leads to the same words. -/
private theorem rest_skip_exchange {lead old gap : List Char} (isLead : Gap lead) (isGap : Gap gap)
    (isLayout : Gap old ∨ after = [] ∧ Laid (fun _ _ => True) [] old) (place : Position) :
    (skipLayout false place (lead ++ (gap ++ after))).rest =
      (skipLayout false place (lead ++ (old ++ after))).rest := by
  rw [skipLayout_gap isLead, skipLayout_gap isLead, skipLayout_gap isGap]
  rcases isLayout with isOld | ⟨rfl, trailing⟩
  · rw [skipLayout_gap isOld]
    exact rest_skipLayout_congr ..
  · rw [List.append_nil, trailing.skip_nil]
    rfl

/-- Behind a seam layout is exchanged for other layout, unless what is there is taken away. -/
theorem Cuts.exchange {old gap : List Char} (cuts : Cuts tokens program before (old ++ after))
    (isLayout : Gap old ∨ after = [] ∧ Laid (fun _ _ => True) [] old) (isGap : Gap gap)
    (kept : gap = [] → old = []) :
    ∃ read, readProgram (String.ofList (before ++ gap ++ after)) = .ok read ∧
      read.map Declaration.anchored = program.map Declaration.anchored := by
  rcases cuts with @⟨first, second, middle, here, used, lead, rfl, reads, rfl, split, isLead,
    exchange⟩
  have resumes : Resumes here.rest (lead ++ (gap ++ after)) := by
    rw [split]
    apply Resumes.append
    by_cases nothing : gap = []
    · rw [nothing, kept nothing]
      exact Or.inl rfl
    · exact Or.inr (isGap.breaks nothing after)
  have words : (⟨here.place, lead ++ (gap ++ after)⟩ : Cursor).skip.rest = here.skip.rest := by
    rcases isLead with isLead | ⟨nothing, ended⟩
    · rw [Cursor.skip, Cursor.skip, split]
      exact rest_skip_exchange isLead isGap isLayout here.place
    · rcases List.append_eq_nil_iff.mp nothing with ⟨rfl, rfl⟩
      rw [List.append_nil] at split ⊢
      have trailing : Laid (fun _ _ => True) [] (here.rest ++ gap) :=
        Cursor.laid_of_ended ended isGap
      rw [split, List.append_nil] at trailing
      rw [ended]
      exact trailing.skip_nil here.place
  rcases reads.alike rfl words with ⟨tail, read, reads', _, same⟩
  have whole := (exchange _ resumes).reads reads'
  rw [← String.toList_ofList (l := used ++ _)] at whole
  refine ⟨read, ?_, same⟩
  rw [List.append_assoc, List.append_assoc]
  exact readFrom_eq_ok_iff.mpr ⟨_, whole⟩

end Seams

/-- Layout does not matter between words. Where a text that is accepted is cut between its words,
blanks and comments may be put in, or may take the place of those that follow, and the text is
accepted as the same program, but for the places of its names. At the end of the text a comment
may be open before. -/
theorem readProgram_respaced {source : String} {program : List Declaration}
    (accepted : readProgram source = .ok program) :
    ∃ tokens, Reads (.between []) ⟨.start, source.toList⟩ tokens program ∧
      ∀ before old gap after, source.toList = before ++ old ++ after →
        Seam tokens before (old ++ after) → (Gap old ∨ after = [] ∧ Laid (fun _ _ => True) [] old) →
        Gap gap → (gap = [] → old = []) →
          ∃ read, readProgram (String.ofList (before ++ gap ++ after)) = .ok read ∧
            read.map Declaration.anchored = program.map Declaration.anchored := by
  rcases readFrom_eq_ok_iff.mp accepted with ⟨tokens, reads⟩
  refine ⟨tokens, reads, ?_⟩
  intro before old gap after split seam isLayout isGap kept
  rw [split, List.append_assoc] at reads
  exact (seam.cuts reads).exchange isLayout isGap kept

/-- A keyword that a rank runs into. -/
private theorem reads_touching : Reads (.between [])
    ⟨.start, "e:=2Dneighborhood:=MOORE".toList⟩
    [⟨.name, "e", ⟨1, 1⟩⟩, ⟨.mark .assign, ":=", ⟨1, 2⟩⟩, ⟨.dimensionality, "2D", ⟨1, 4⟩⟩,
      ⟨.keyword .neighborhood, "neighborhood", ⟨1, 6⟩⟩, ⟨.mark .assign, ":=", ⟨1, 18⟩⟩,
      ⟨.keyword .moore, "MOORE", ⟨1, 20⟩⟩]
    [⟨⟨"e", some ⟨1, 1⟩⟩, .environment ⟨2, []⟩⟩,
      ⟨⟨"neighborhood", some ⟨1, 6⟩⟩, .neighborhood .moore⟩] := by
  refine .word (show nextWord _ _ = some ⟨.name, "e".toList, _⟩ from rfl) rfl ?_
  refine .word (show nextWord _ _ = some ⟨.mark .assign, ":=".toList, _⟩ from rfl) rfl ?_
  refine .word (show nextWord _ _ = some ⟨.dimensionality, "2D".toList, _⟩ from rfl) rfl ?_
  refine .word (show nextWord _ _ = some ⟨.keyword .neighborhood, "neighborhood".toList, _⟩
    from rfl) rfl ?_
  refine .word (show nextWord _ _ = some ⟨.mark .assign, ":=".toList, _⟩ from rfl) rfl ?_
  refine .word (show nextWord _ _ = some ⟨.keyword .moore, "MOORE".toList, _⟩ from rfl) rfl ?_
  exact .done rfl rfl

theorem readProgram_respaced_touching : ∃ program read,
    readProgram "e:=2Dneighborhood:=MOORE" = .ok program ∧
      readProgram "e:=2D # flat\nneighborhood:=MOORE" = .ok read ∧
        read.map Declaration.anchored = program.map Declaration.anchored := by
  have accepted : readProgram "e:=2Dneighborhood:=MOORE" = .ok _ :=
    readFrom_eq_ok_iff.mpr ⟨_, reads_touching⟩
  rcases readProgram_respaced accepted with
    ⟨tokens, reads, exchanged⟩
  have member : (⟨.keyword .neighborhood, "neighborhood", ⟨1, 6⟩⟩ : Token) ∈ tokens := by
    rw [(reads.unique reads_touching).1]
    simp
  have seam : Seam tokens "e:=2D".toList "neighborhood:=MOORE".toList := .before member rfl
  have isComment : IsComment "# flat".toList := ⟨Or.inl (by decide), by simp⟩
  have comment : Gap " # flat\n".toList := .blank rfl (.comment isComment .nil)
  rcases exchanged _ [] _ _ rfl seam (Or.inl .nil) comment (fun _ => rfl) with
    ⟨read, accepted', same⟩
  exact ⟨_, read, accepted, accepted', same⟩

end Cellular
