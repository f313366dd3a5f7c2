import Cellular.Proofs.Source.Spelling
import Cellular.Source.Place

/-!
# Which words are found

A list of terminals admits a token if the token can be found when these terminals are
looked for: it is spelled, and a name is none of the keywords among them. Only such tokens
are found, and a token that is admitted is found if nothing continues it. For the latter
no two terminals may compete for a text, and at no place in a program do they.
-/

namespace Cellular

/-- A token that can be found where the given terminals are looked for. -/
structure Admits (wanted : List Terminal) (token : Token) : Prop where
  sought : token.terminal ∈ wanted
  spelled : token.Spelled
  ordinary : token.terminal = .name → ∀ k : Keyword, .keyword k ∈ wanted → k.text ≠ token.text

/-- What follows a token does not belong to its word: it does not continue it, or nothing could.
Nothing continues a keyword where no name is looked for, nor a comparison of two characters. -/
inductive EndsBefore (wanted : List Terminal) (token : Token) (rest : List Char) : Prop where
  | stops : token.terminal.Stops rest → EndsBefore wanted token rest
  | keyword {k : Keyword} : token.terminal = .keyword k → .name ∉ wanted →
      EndsBefore wanted token rest
  | comparison {comparison : Comparison} : token.terminal = .comparison →
      token.text = comparison.symbol → comparison.symbol.length = 2 →
      EndsBefore wanted token rest

/-! ## Classes of names -/

private theorem classify_eq (wanted : List Terminal) (text : String) :
    (∃ k : Keyword, classify wanted text = .keyword k ∧ .keyword k ∈ wanted ∧ k.text = text) ∨
      classify wanted text = .name ∧ ∀ k : Keyword, .keyword k ∈ wanted → k.text ≠ text := by
  have sought : ∃ passes : Terminal → Bool,
      classify wanted text = (wanted.find? passes).getD .name ∧
      ∀ terminal, passes terminal = true ↔
        ∃ k : Keyword, terminal = .keyword k ∧ k.text = text := by
    refine ⟨_, rfl, ?_⟩
    intro terminal
    cases terminal <;> simp
  rcases sought with ⟨passes, whole, passes_iff⟩
  rw [whole]
  cases found : wanted.find? passes with
  | some terminal =>
      rcases (passes_iff terminal).mp (List.find?_some found) with ⟨k, rfl, same⟩
      exact Or.inl ⟨k, rfl, List.mem_of_find?_eq_some found, same⟩
  | none =>
      refine Or.inr ⟨rfl, ?_⟩
      intro k member same
      exact List.find?_eq_none.mp found _ member ((passes_iff _).mpr ⟨k, rfl, same⟩)

theorem Keyword.text_injective {first second : Keyword} (same : first.text = second.text) :
    first = second := by
  revert same
  cases first <;> cases second <;> decide

private theorem classify_keyword {wanted : List Terminal} {k : Keyword}
    (member : .keyword k ∈ wanted) : classify wanted k.text = .keyword k := by
  rcases classify_eq wanted k.text with ⟨other, known, _, same⟩ | ⟨_, ordinary⟩
  · rw [known, Keyword.text_injective same]
  · exact absurd rfl (ordinary k member)

private theorem classify_name {wanted : List Terminal} {text : String}
    (ordinary : ∀ k : Keyword, .keyword k ∈ wanted → k.text ≠ text) :
    classify wanted text = .name := by
  rcases classify_eq wanted text with ⟨k, _, member, same⟩ | ⟨known, _⟩
  · exact absurd same (ordinary k member)
  · exact known

/-! ## What is found is admitted -/

theorem mem_searched {wanted : List Terminal} {terminal : Terminal}
    (member : terminal ∈ searched wanted) : terminal ∈ wanted := by
  rw [searched] at member
  split at member
  · exact (List.mem_filter.mp member).1
  · exact member

theorem nameless_of_mem_searched {wanted : List Terminal} {k : Keyword}
    (member : .keyword k ∈ searched wanted) : .name ∉ wanted := by
  intro named
  rw [searched, if_pos (List.contains_iff_mem.mpr named)] at member
  exact absurd (List.mem_filter.mp member).2 (by simp)

theorem mem_searched_of_nameless {wanted : List Terminal} {terminal : Terminal}
    (member : terminal ∈ wanted) (nameless : .name ∉ wanted) : terminal ∈ searched wanted := by
  rwa [searched, if_neg fun contained => nameless (List.contains_iff_mem.mp contained)]

theorem mem_searched_of_ne_keyword {wanted : List Terminal} {terminal : Terminal}
    (member : terminal ∈ wanted) (other : ∀ k, terminal ≠ .keyword k) :
    terminal ∈ searched wanted := by
  rw [searched]
  split
  · apply List.mem_filter.mpr
    apply And.intro member
    cases terminal with
    | keyword k => exact absurd rfl (other k)
    | dimensionality | name | integer | comparison | mark m => rfl
  · exact member

/-- Only tokens that are admitted are found. -/
theorem admits_of_nextWord {wanted : List Terminal} {chars : List Char} {word : Word}
    (found : nextWord wanted chars = some word) (place : Position) :
    Admits wanted ⟨word.terminal, String.ofList word.chars, place⟩ := by
  rcases Option.map_eq_some_iff.mp found with ⟨terminal, isFound, rfl⟩
  have known := List.find?_some isFound
  rw [Bool.and_eq_true, List.contains_iff_mem, decide_eq_true_eq] at known
  have sought := mem_searched known.1
  have spelled := Terminal.spells_take known.2
  by_cases isName : terminal = .name
  · subst isName
    simp only [if_true]
    rcases classify_eq wanted (String.ofList (chars.take (Terminal.name.lengthAt chars)))
      with ⟨k, classified, member, same⟩ | ⟨classified, ordinary⟩
    · rw [classified]
      exact ⟨member, congrArg String.toList same.symm, fun isName => by cases isName⟩
    · rw [classified]
      exact ⟨sought, by rwa [Token.Spelled, String.toList_ofList], fun _ => ordinary⟩
  · simp only [if_neg isName]
    refine ⟨sought, ?_, fun other => absurd other isName⟩
    rwa [Token.Spelled, String.toList_ofList]

/-! ## No two terminals compete -/

/-- Terminals of which at most two, the sign for plus and that for plus and minus, can be
found at the start of one text. -/
structure Orderly (wanted : List Terminal) : Prop where
  integer : .integer ∈ wanted → wanted = [.integer]
  comparison : .comparison ∈ wanted → wanted = [.comparison]
  dimensionality : .dimensionality ∈ wanted → .name ∉ wanted

namespace Place

theorem orderly (place : Place) : Orderly place.wanted := by
  cases place <;> constructor <;> simp [wanted, afterDeclaration, afterAxis, directions]

end Place

private theorem keyword_head (k : Keyword) :
    ∃ c rest, k.text.toList = c :: rest ∧ isNameStart c = true ∧ c.isDigit = false := by
  cases k <;> exact ⟨_, _, rfl, rfl, rfl⟩

private theorem mark_head (m : Mark) :
    ∃ c rest, m.text.toList = c :: rest ∧ isNameStart c = false ∧ c.isDigit = false := by
  cases m <;> exact ⟨_, _, rfl, rfl, rfl⟩

private theorem letter_of_name {c : Char} {rest : List Char}
    (present : 0 < nameLength (c :: rest)) : isNameStart c = true := by
  rw [nameLength] at present
  by_cases letter : isNameStart c = true
  · exact letter
  · rw [if_neg letter] at present
    exact absurd present (Nat.lt_irrefl 0)

private theorem digit_of_dimensionality {c : Char} {rest : List Char}
    (present : 0 < dimensionalityLength (c :: rest)) : c.isDigit = true := by
  have spelled : Terminal.dimensionality.Spells _ := Terminal.spells_take present
  rcases spelled with ⟨digit, known, spelling⟩
  have same : c = digit := by
    cases length : dimensionalityLength (c :: rest) with
    | zero => exact absurd present (by rw [length]; exact Nat.lt_irrefl 0)
    | succ n =>
        rw [Terminal.lengthAt, length, List.take_succ_cons] at spelling
        exact (List.cons.inj spelling).1
  subst same
  rcases known with rfl | rfl | rfl <;> rfl

private theorem keyword_eq_of_front {first second : Keyword}
    (isPrefix : first.text.toList <+: second.text.toList) : first = second := by
  revert isPrefix
  cases first <;> cases second <;> decide

private theorem mark_eq_of_front {first second : Mark}
    (isPrefix : first.text.toList <+: second.text.toList) :
    first = second ∨ first = .plus ∧ second = .plusMinus := by
  revert isPrefix
  cases first <;> cases second <;> decide

private theorem head_eq_of_front {chars text : List Char} {c d : Char} {rest others : List Char}
    (isPrefix : chars <+: text) (head : chars = c :: rest) (start : text = d :: others) :
    c = d := by
  subst head start
  exact (List.cons_prefix_cons.mp isPrefix).1

private theorem eq_or_of_fronts {first second text : List Char} (one : first <+: text)
    (two : second <+: text) : first <+: second ∨ second <+: first :=
  List.prefix_or_prefix_of_prefix one two

/-- Where a mark stands only that mark is found, or the plus that a plus and minus begins
with. -/
private theorem mark_competes {wanted : List Terminal} (orderly : Orderly wanted) {m : Mark}
    {terminal : Terminal} {rest : List Char} (sought : .mark m ∈ wanted)
    (stops : (Terminal.mark m).Stops rest) (rival : terminal ∈ wanted)
    (present : 0 < terminal.lengthAt (m.text.toList ++ rest)) :
    terminal = .mark m ∨ terminal = .mark .plus ∧ m = .plusMinus := by
  rcases mark_head m with ⟨c, others, spelling, notLetter, notDigit⟩
  cases terminal with
  | integer => exact absurd (orderly.integer rival ▸ sought) (by simp)
  | comparison => exact absurd (orderly.comparison rival ▸ sought) (by simp)
  | dimensionality =>
      rw [spelling, List.cons_append] at present
      exact absurd (digit_of_dimensionality present) (by rw [notDigit]; decide)
  | name =>
      rw [spelling, List.cons_append] at present
      exact absurd (letter_of_name present) (by rw [notLetter]; decide)
  | keyword k =>
      rcases keyword_head k with ⟨d, letters, spelling', letter, _⟩
      have same := head_eq_of_front (prefix_of_spellingLength_pos present) spelling'
        (by rw [spelling, List.cons_append])
      rw [same, notLetter] at letter
      exact absurd letter Bool.false_ne_true
  | mark other =>
      have found := prefix_of_spellingLength_pos present
      rcases eq_or_of_fronts found (List.prefix_append m.text.toList rest) with inside | outside
      · rcases mark_eq_of_front inside with rfl | ⟨rfl, rfl⟩
        · exact Or.inl rfl
        · exact Or.inr ⟨rfl, rfl⟩
      · rcases mark_eq_of_front outside with rfl | ⟨rfl, rfl⟩
        · exact Or.inl rfl
        · -- a plus that a minus follows does not stop
          rcases found with ⟨after, whole⟩
          rcases rest with _ | ⟨c, rest⟩
          · exact absurd whole (by simp [Mark.text])
          · have same : '+' :: '-' :: after = '+' :: c :: rest := whole
            obtain rfl : '-' = c := (List.cons.inj (List.cons.inj same).2).1
            exact absurd (stops '-' rfl) (by decide)

/-- Where a keyword stands and no name is looked for, only that keyword is found. -/
private theorem keyword_competes {wanted : List Terminal} (orderly : Orderly wanted)
    {k : Keyword} {terminal : Terminal} {rest : List Char} (sought : .keyword k ∈ wanted)
    (nameless : .name ∉ wanted) (rival : terminal ∈ wanted)
    (present : 0 < terminal.lengthAt (k.text.toList ++ rest)) : terminal = .keyword k := by
  rcases keyword_head k with ⟨c, others, spelling, letter, notDigit⟩
  cases terminal with
  | integer => exact absurd (orderly.integer rival ▸ sought) (by simp)
  | comparison => exact absurd (orderly.comparison rival ▸ sought) (by simp)
  | dimensionality =>
      rw [spelling, List.cons_append] at present
      exact absurd (digit_of_dimensionality present) (by rw [notDigit]; decide)
  | name => exact absurd rival nameless
  | keyword other =>
      have found := prefix_of_spellingLength_pos present
      rcases eq_or_of_fronts found (List.prefix_append k.text.toList rest) with inside | outside
      · rw [keyword_eq_of_front inside]
      · rw [keyword_eq_of_front outside]
  | mark m =>
      rcases mark_head m with ⟨d, _, spelling', notLetter, _⟩
      have same := head_eq_of_front (prefix_of_spellingLength_pos present) spelling'
        (by rw [spelling, List.cons_append])
      rw [same, letter] at notLetter
      exact absurd notLetter.symm Bool.false_ne_true

/-- A mark is not found where a letter or a digit stands. -/
private theorem mark_absent {m : Mark} {c : Char} {rest : List Char}
    (word : isNameStart c = true ∨ c.isDigit = true) :
    ¬0 < (Terminal.mark m).lengthAt (c :: rest) := by
  intro present
  rcases mark_head m with ⟨d, _, spelling, notLetter, notDigit⟩
  have same := head_eq_of_front (prefix_of_spellingLength_pos present) spelling rfl
  subst same
  rcases word with letter | digit
  · rw [notLetter] at letter
    exact absurd letter Bool.false_ne_true
  · rw [notDigit] at digit
    exact absurd digit Bool.false_ne_true

/-- At a spelling that stops no other terminal is found, except for the plus that a plus and
minus begins with. -/
private theorem eq_of_competes {wanted : List Terminal} (orderly : Orderly wanted)
    {terminal rival : Terminal} {chars rest : List Char} (sought : terminal ∈ searched wanted)
    (spelled : terminal.Spells chars) (stops : ∀ m, terminal = .mark m → terminal.Stops rest)
    (member : rival ∈ searched wanted) (present : 0 < rival.lengthAt (chars ++ rest)) :
    rival = terminal ∨ rival = .mark .plus ∧ terminal = .mark .plusMinus := by
  have isWanted := mem_searched sought
  have isRival := mem_searched member
  cases terminal with
  | integer =>
      rw [orderly.integer isWanted, List.mem_singleton] at isRival
      exact Or.inl isRival
  | comparison =>
      rw [orderly.comparison isWanted, List.mem_singleton] at isRival
      exact Or.inl isRival
  | keyword k =>
      obtain rfl := spelled
      exact Or.inl (keyword_competes orderly isWanted (nameless_of_mem_searched sought)
        isRival present)
  | mark m =>
      obtain rfl := spelled
      rcases mark_competes orderly isWanted (stops m rfl) isRival present with rfl | ⟨rfl, rfl⟩
      · exact Or.inl rfl
      · exact Or.inr ⟨rfl, rfl⟩
  | name =>
      rcases spelled with ⟨c, others, rfl, letter, _⟩
      cases rival with
      | name => exact Or.inl rfl
      | integer => exact absurd (orderly.integer isRival ▸ isWanted) (by simp)
      | comparison => exact absurd (orderly.comparison isRival ▸ isWanted) (by simp)
      | dimensionality => exact absurd isWanted (orderly.dimensionality isRival)
      | keyword k => exact absurd isWanted (nameless_of_mem_searched member)
      | mark m => exact absurd present (mark_absent (Or.inl letter))
  | dimensionality =>
      rcases spelled with ⟨digit, known, rfl⟩
      have isDigit : digit.isDigit = true := by rcases known with rfl | rfl | rfl <;> rfl
      cases rival with
      | dimensionality => exact Or.inl rfl
      | name => exact absurd isRival (orderly.dimensionality isWanted)
      | integer => exact absurd (orderly.integer isRival ▸ isWanted) (by simp)
      | comparison => exact absurd (orderly.comparison isRival ▸ isWanted) (by simp)
      | keyword k =>
          rcases keyword_head k with ⟨c, _, spelling, _, notDigit⟩
          have same := head_eq_of_front (prefix_of_spellingLength_pos present) spelling rfl
          rw [same, isDigit] at notDigit
          exact absurd notDigit.symm Bool.false_ne_true
      | mark m => exact absurd present (mark_absent (Or.inr isDigit))

/-! ## What is admitted is found -/

theorem Terminal.mem_all (terminal : Terminal) : terminal ∈ all := by
  cases terminal with
  | dimensionality | name | integer | comparison => decide
  | keyword k => cases k <;> decide
  | mark m => cases m <;> decide

/-- A plus and minus is tried before a plus. -/
private theorem find?_ne_plus {found : Terminal → Bool}
    (present : found (.mark .plusMinus) = true) :
    Terminal.all.find? found ≠ some (.mark .plus) := by
  intro isPlus
  have split : Terminal.all = Terminal.all.take 17 ++ Terminal.all.drop 17 := rfl
  have early : ((Terminal.all.take 17).find? found).isSome = true :=
    List.find?_isSome.mpr ⟨_, by decide, present⟩
  rw [split, List.find?_append, Option.or_of_isSome early] at isPlus
  exact absurd (List.mem_of_find?_eq_some isPlus) (by decide)

private theorem find?_eq_some_of_only {found : Terminal → Bool} {terminal : Terminal}
    (present : found terminal = true)
    (only : ∀ rival, found rival = true →
      rival = terminal ∨ rival = .mark .plus ∧ terminal = .mark .plusMinus) :
    Terminal.all.find? found = some terminal := by
  have some_found : (Terminal.all.find? found).isSome = true :=
    List.find?_isSome.mpr ⟨terminal, terminal.mem_all, present⟩
  rcases Option.isSome_iff_exists.mp some_found with ⟨rival, isFound⟩
  rcases only rival (List.find?_some isFound) with rfl | ⟨rfl, rfl⟩
  · exact isFound
  · exact absurd isFound (find?_ne_plus present)

private theorem find?_eq_some {wanted : List Terminal} (orderly : Orderly wanted)
    {terminal : Terminal} {chars rest : List Char} (sought : terminal ∈ searched wanted)
    (spelled : terminal.Spells chars) (stops : ∀ m, terminal = .mark m → terminal.Stops rest)
    (length : terminal.lengthAt (chars ++ rest) = chars.length) :
    (Terminal.all.find? fun terminal => (searched wanted).contains terminal &&
      decide (0 < terminal.lengthAt (chars ++ rest))) = some terminal := by
  have whole : 0 < terminal.lengthAt (chars ++ rest) := by
    rw [length]
    exact List.length_pos_iff.mpr spelled.ne_nil
  apply find?_eq_some_of_only
  · rw [Bool.and_eq_true, List.contains_iff_mem, decide_eq_true_eq]
    exact ⟨sought, whole⟩
  · intro rival present
    rw [Bool.and_eq_true, List.contains_iff_mem, decide_eq_true_eq] at present
    exact eq_of_competes orderly sought spelled stops present.1 present.2

namespace EndsBefore

variable {wanted : List Terminal} {token : Token} {rest : List Char}

private theorem lengthAt_eq (ends : EndsBefore wanted token rest) (spelled : token.Spelled) :
    token.terminal.lengthAt (token.text.toList ++ rest) = token.text.toList.length := by
  cases ends with
  | stops stops => exact Terminal.lengthAt_append spelled stops
  | @keyword k isKeyword _ =>
      rw [Token.Spelled, isKeyword] at spelled
      rw [isKeyword, show token.text.toList = k.text.toList from spelled]
      exact spellingLength_append k.text rest
  | @comparison comparison isComparison symbol two =>
      rw [isComparison, symbol]
      cases comparison with
      | equal | unequal | atMost | atLeast => rfl
      | below | above => exact absurd two (by decide)

private theorem mark_stops (ends : EndsBefore wanted token rest) (m : Mark)
    (isMark : token.terminal = .mark m) : token.terminal.Stops rest := by
  cases ends with
  | stops stops => exact stops
  | keyword isKeyword _ => exact absurd (isMark.symm.trans isKeyword) nofun
  | comparison isComparison _ _ => exact absurd (isMark.symm.trans isComparison) nofun

private theorem keyword_stops (ends : EndsBefore wanted token rest) (named : .name ∈ wanted)
    {k : Keyword} (isKeyword : token.terminal = .keyword k) : token.terminal.Stops rest := by
  cases ends with
  | stops stops => exact stops
  | keyword _ nameless => exact absurd named nameless
  | comparison isComparison _ _ => exact absurd (isKeyword.symm.trans isComparison) nofun

end EndsBefore

/-- A token that is admitted is found as a whole, if it ends there. -/
theorem nextWord_of_ends {wanted : List Terminal} (orderly : Orderly wanted) {token : Token}
    (admits : Admits wanted token) {rest : List Char} (ends : EndsBefore wanted token rest) :
    nextWord wanted (token.text.toList ++ rest) =
      some ⟨token.terminal, token.text.toList, rest⟩ := by
  have length := ends.lengthAt_eq admits.spelled
  have markStops := ends.mark_stops
  have keywordStops := fun named k => ends.keyword_stops named (k := k)
  rcases token with ⟨terminal, text, place⟩
  rcases admits with ⟨sought, spelled, ordinary⟩
  simp only [Token.Spelled] at sought spelled ordinary length markStops keywordStops ⊢
  rw [nextWord]
  by_cases named : .name ∈ wanted ∧ ∃ k, terminal = .keyword k
  · rcases named with ⟨named, k, rfl⟩
    have asName : Terminal.name.Spells text.toList := by
      rw [spelled]
      exact k.spells_name
    have same : text = k.text := String.toList_inj.mp spelled
    have whole := Terminal.lengthAt_append asName (keywordStops named k rfl)
    rw [find?_eq_some orderly (mem_searched_of_ne_keyword named (by simp)) asName (by simp) whole,
      Option.map_some, whole, List.take_left, List.drop_left]
    simp only [String.ofList_toList, if_true, same, classify_keyword sought]
  · have isSearched : terminal ∈ searched wanted := by
      by_cases keyword : ∃ k, terminal = .keyword k
      · exact mem_searched_of_nameless sought fun present => named ⟨present, keyword⟩
      · exact mem_searched_of_ne_keyword sought fun k same => keyword ⟨k, same⟩
    rw [find?_eq_some orderly isSearched spelled markStops length, Option.map_some, length,
      List.take_left, List.drop_left]
    by_cases isName : terminal = .name
    · simp only [String.ofList_toList, isName, if_true, classify_name (ordinary isName)]
    · simp only [if_neg isName]

/-- A token that is admitted is found as a whole, if nothing continues it. -/
theorem nextWord_spelling {wanted : List Terminal} (orderly : Orderly wanted) {token : Token}
    (admits : Admits wanted token) {rest : List Char} (stops : token.terminal.Stops rest) :
    nextWord wanted (token.text.toList ++ rest) =
      some ⟨token.terminal, token.text.toList, rest⟩ :=
  nextWord_of_ends orderly admits (.stops stops)

/-! ## What is found ends where it is said to end -/

private theorem stops_drop {p : Char → Bool} {terminal : Terminal}
    (continues : ∀ c, terminal.continuedBy c = p c) (chars : List Char) :
    terminal.Stops (chars.drop (chars.takeWhile p).length) := by
  intro c first
  have split : chars.drop (chars.takeWhile p).length = chars.dropWhile p := by
    calc chars.drop (chars.takeWhile p).length
        = (chars.takeWhile p ++ chars.dropWhile p).drop (chars.takeWhile p).length := by
          rw [List.takeWhile_append_dropWhile]
      _ = chars.dropWhile p := List.drop_left
  have stopped := List.head?_dropWhile_not p chars
  rw [← split, Option.mem_def.mp first] at stopped
  rw [continues]
  exact stopped

private theorem name_stops {chars : List Char} (positive : 0 < nameLength chars) :
    Terminal.name.Stops (chars.drop (nameLength chars)) := by
  rcases chars with _ | ⟨c, rest⟩
  · exact absurd positive (Nat.lt_irrefl 0)
  · rw [nameLength, if_pos (letter_of_name positive), List.drop_succ_cons]
    exact stops_drop (fun _ => rfl) rest

private theorem integer_stops {chars : List Char} (positive : 0 < integerLength chars) :
    Terminal.integer.Stops (chars.drop (integerLength chars)) := by
  unfold integerLength at positive ⊢
  split at positive
  · rename_i rest
    by_cases none : digitsLength rest = 0
    · rw [if_pos none] at positive
      exact absurd positive (Nat.lt_irrefl 0)
    · rw [if_neg none, List.drop_succ_cons]
      exact stops_drop (fun _ => rfl) rest
  · exact stops_drop (fun _ => rfl) chars

private theorem comparison_stops {rest : List Char} (single : ∀ tail, rest ≠ '=' :: tail) :
    Terminal.comparison.Stops rest := by
  intro d first
  rcases rest with _ | ⟨e, tail⟩
  · exact absurd first (by simp)
  · obtain rfl : e = d := Option.some.inj first
    apply decide_eq_false
    rintro rfl
    exact single tail rfl

private theorem comparison_ends {wanted : List Terminal} {chars : List Char}
    (positive : 0 < comparisonLength chars) (place : Position) :
    EndsBefore wanted ⟨.comparison, String.ofList (chars.take (comparisonLength chars)), place⟩
      (chars.drop (comparisonLength chars)) := by
  unfold comparisonLength at positive ⊢
  split
  · exact @EndsBefore.comparison _ _ _ .equal rfl rfl rfl
  · exact @EndsBefore.comparison _ _ _ .unequal rfl rfl rfl
  · exact @EndsBefore.comparison _ _ _ .atMost rfl rfl rfl
  · exact @EndsBefore.comparison _ _ _ .atLeast rfl rfl rfl
  · rename_i single
    exact .stops (comparison_stops single)
  · rename_i single
    exact .stops (comparison_stops single)
  · simp_all

namespace Place

theorem plusMinus_wanted {place : Place} (sought : .mark .plus ∈ place.wanted) :
    .mark .plusMinus ∈ place.wanted := by
  revert sought
  cases place <;> simp [wanted, afterDeclaration, afterAxis, directions]

end Place

/-- Where a plus is found, no minus follows, as the two would be another sign. -/
private theorem plus_stops {place : Place} {chars : List Char}
    (found : (Terminal.all.find? fun terminal => (searched place.wanted).contains terminal &&
      decide (0 < terminal.lengthAt chars)) = some (.mark .plus)) :
    (Terminal.mark .plus).Stops (chars.drop ((Terminal.mark .plus).lengthAt chars)) := by
  have known := List.find?_some found
  rw [Bool.and_eq_true, List.contains_iff_mem, decide_eq_true_eq] at known
  rcases prefix_of_spellingLength_pos known.2 with ⟨rest, rfl⟩
  have length : (Terminal.mark .plus).lengthAt (Mark.plus.text.toList ++ rest) = 1 :=
    spellingLength_append Mark.plus.text rest
  rw [length]
  intro c first
  apply decide_eq_false
  rintro rfl
  rcases rest with _ | ⟨d, tail⟩
  · exact absurd first (by decide)
  · obtain rfl : d = '-' := Option.some.inj first
    apply absurd found
    apply find?_ne_plus
    rw [Bool.and_eq_true, List.contains_iff_mem, decide_eq_true_eq]
    have both := spellingLength_append Mark.plusMinus.text tail
    refine ⟨mem_searched_of_ne_keyword (Place.plusMinus_wanted (mem_searched known.1)) (by simp),
      ?_⟩
    exact lt_of_lt_of_eq (by decide) both.symm

/-- At any place in a program a word ends where it is said to end. -/
theorem Place.ends_of_nextWord {place : Place} {chars : List Char} {word : Word}
    (found : nextWord place.wanted chars = some word) (start : Position) :
    EndsBefore place.wanted ⟨word.terminal, String.ofList word.chars, start⟩ word.rest := by
  rcases Option.map_eq_some_iff.mp found with ⟨terminal, isFound, rfl⟩
  have known := List.find?_some isFound
  rw [Bool.and_eq_true, List.contains_iff_mem, decide_eq_true_eq] at known
  cases terminal with
  | name =>
      have stops := name_stops known.2
      apply EndsBefore.stops
      simp only [if_true]
      rcases classify_eq place.wanted (String.ofList (chars.take (Terminal.name.lengthAt chars)))
        with ⟨k, classified, _⟩ | ⟨classified, _⟩ <;>
        · rw [classified]
          exact stops
  | keyword k => exact .keyword rfl (nameless_of_mem_searched known.1)
  | integer => exact .stops (integer_stops known.2)
  | comparison => exact comparison_ends known.2 start
  | dimensionality => exact .stops fun _ _ => rfl
  | mark m =>
      apply EndsBefore.stops
      cases m
      case plus => exact plus_stops isFound
      all_goals exact fun _ _ => rfl

/-! ## Words behind which the text is exchanged -/

/-- A text that can take the place of another behind any word: it begins in the same way, or
with something that continues no word. -/
def Resumes (rest other : List Char) : Prop :=
  other.head? = rest.head? ∨ Breaks other

theorem EndsBefore.resume {wanted : List Terminal} {token : Token} {rest other : List Char}
    (ends : EndsBefore wanted token rest) (resumes : Resumes rest other) :
    EndsBefore wanted token other := by
  cases ends with
  | stops stops =>
      rcases resumes with same | breaks
      · exact .stops fun c first => stops c (same ▸ first)
      · exact .stops (breaks _)
  | keyword isKeyword nameless => exact .keyword isKeyword nameless
  | comparison isComparison symbol two => exact .comparison isComparison symbol two

/-- A word is found again before another text that may stand behind it. -/
theorem Place.nextWord_resume {place : Place} {chars other : List Char} {word : Word}
    (found : nextWord place.wanted chars = some word) (resumes : Resumes word.rest other) :
    nextWord place.wanted (word.chars ++ other) = some { word with rest := other } := by
  have again := nextWord_of_ends place.orderly (admits_of_nextWord found .start)
    ((place.ends_of_nextWord found .start).resume resumes)
  simpa only [String.toList_ofList] using again

end Cellular
