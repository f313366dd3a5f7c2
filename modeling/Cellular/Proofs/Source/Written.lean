import Cellular.Proofs.Source.Acceptance
import Cellular.Proofs.Source.Derived
import Mathlib.Data.List.Induction

/-!
# Written texts

A text is written from some tokens if it can stand before any text that does not begin like
the rest of a word: then the two together are laid out from the tokens and those of the
rest. Texts that are written from tokens can be put together, with layout or with marks
between them.
-/

namespace Cellular

/-- A text with the words of some tokens. -/
def Writes (tokens : List Token) (text : String) : Prop :=
  ∀ others rest, Breaks rest → Laid Apart others rest →
    Laid Apart (tokens ++ others) (text.toList ++ rest)

/-- The marks that may stand directly behind any word. -/
def Mark.IsTight : Mark → Prop
  | colons | openParen | closeParen | comma => True
  | _ => False

theorem breaks_mark {m : Mark} (tight : m.IsTight) (rest : List Char) :
    Breaks (m.text.toList ++ rest) := by
  cases m <;> first | exact tight.elim | exact breaks_cons (by decide) (by decide) (by decide) _

/-! ## Tokens of written texts -/

/-- The token of a mark, at the place where every text starts. -/
def Mark.token (m : Mark) : Token :=
  ⟨.mark m, m.text, .start⟩

/-- The token of a keyword, at the place where every text starts. -/
def Keyword.token (k : Keyword) : Token :=
  ⟨.keyword k, k.text, .start⟩

/-- The token of a name, at the place where every text starts. -/
def Name.token (name : Name) : Token :=
  ⟨.name, name.text, .start⟩

theorem AllSpelled.separated {before tokens : List Token} (first : AllSpelled before) (m : Mark)
    (last : AllSpelled tokens) : AllSpelled (before ++ [m.token] ++ tokens) := by
  simp only [AllSpelled.append_iff, AllSpelled.cons_iff]
  exact ⟨⟨first, rfl, nofun⟩, last⟩

theorem AllSpelled.enclosed {tokens : List Token} (opened : Mark) (inner : AllSpelled tokens)
    (closed : Mark) : AllSpelled ([opened.token] ++ tokens ++ [closed.token]) := by
  simp only [AllSpelled.append_iff, AllSpelled.cons_iff]
  exact ⟨⟨⟨rfl, nofun⟩, inner⟩, rfl, nofun⟩

/-! ## Writing -/

theorem Writes.nil : Writes [] "" :=
  fun _ _ _ laid => laid

theorem Writes.token (token : Token) : Writes [token] token.text :=
  fun _ _ breaks laid => .word (breaks token.terminal) laid

/-- Words with layout between them. -/
theorem Writes.blank {first second : List Token} {text rest : String} (before : Writes first text)
    (after : Writes second rest) {c : Char} (blank : isBlank c = true) :
    Writes (first ++ second) (text ++ String.singleton c ++ rest) := by
  intro others following breaks laid
  have tail : Laid Apart (second ++ others) (c :: (rest.toList ++ following)) :=
    .blank blank (after others following breaks laid)
  have whole := before (second ++ others) _ (breaks_blank blank _) tail
  simpa [String.toList_append, List.append_assoc] using whole

/-- A mark that nothing before it runs into and that runs into nothing behind it. -/
theorem Writes.mark {first second : List Token} {text rest : String} (before : Writes first text)
    (after : Writes second rest) {m : Mark} (tight : m.IsTight) :
    Writes (first ++ [m.token] ++ second) (text ++ m.text ++ rest) := by
  intro others following breaks laid
  have apart : Apart m.token (rest.toList ++ following) := by
    cases m <;> first | exact tight.elim | exact fun _ _ => rfl
  have tail : Laid Apart (m.token :: (second ++ others))
      (m.text.toList ++ (rest.toList ++ following)) :=
    .word apart (after others following breaks laid)
  have whole := before _ _ (breaks_mark tight _) tail
  simpa [String.toList_append, List.append_assoc] using whole

/-- A mark at the beginning of a text. -/
theorem Writes.opened {tokens : List Token} {text : String} (after : Writes tokens text) {m : Mark}
    (other : m ≠ .plus) : Writes (m.token :: tokens) (m.text ++ text) := by
  intro others following breaks laid
  have apart : Apart m.token (text.toList ++ following) := by
    cases m <;> first | exact absurd rfl other | exact fun _ _ => rfl
  have whole : Laid Apart (m.token :: (tokens ++ others))
      (m.text.toList ++ (text.toList ++ following)) :=
    .word apart (after others following breaks laid)
  simpa [String.toList_append, List.append_assoc] using whole

/-- Layout before a text. -/
theorem Writes.leading {tokens : List Token} {text : String} (after : Writes tokens text) {c : Char}
    (blank : isBlank c = true) : Writes tokens (String.singleton c ++ text) := by
  intro others following breaks laid
  have whole : Laid Apart (tokens ++ others) (c :: (text.toList ++ following)) :=
    .blank blank (after others following breaks laid)
  simpa [String.toList_append] using whole

/-- A mark with a space on either side. -/
theorem Writes.around {first second : List Token} {text rest : String} (before : Writes first text)
    (after : Writes second rest) (m : Mark) :
    Writes (first ++ [m.token] ++ second) (text ++ (" " ++ m.text ++ " ") ++ rest) := by
  have spaced := (before.blank (.token m.token) (c := ' ') rfl).blank after (c := ' ') rfl
  have blank : String.singleton ' ' = " " := rfl
  simpa [blank, Mark.token, String.append_assoc] using spaced

/-- A mark directly behind a text, and a space. -/
theorem Writes.behind {first second : List Token} {text rest : String} (before : Writes first text)
    (after : Writes second rest) {m : Mark} (tight : m.IsTight) :
    Writes (first ++ [m.token] ++ second) (text ++ (m.text ++ " ") ++ rest) := by
  have marked := before.mark (after.leading (c := ' ') rfl) tight
  have blank : String.singleton ' ' = " " := rfl
  simpa [blank, String.append_assoc] using marked

/-- A text in brackets that it touches. -/
theorem Writes.bracketed {tokens : List Token} {text : String} (inner : Writes tokens text) :
    Writes ([Mark.openParen.token] ++ tokens ++ [Mark.closeParen.token]) ("(" ++ text ++ ")") := by
  have closed := inner.mark .nil (m := .closeParen) trivial
  have opened := closed.opened (m := .openParen) nofun
  simpa [Mark.text, String.append_assoc] using opened

/-- A text between curly brackets. -/
theorem Writes.braced {tokens : List Token} {text : String} (inner : Writes tokens text) :
    Writes ([Mark.openBrace.token] ++ tokens ++ [Mark.closeBrace.token])
      ("\x7b " ++ text ++ " \x7d") := by
  have opened := (Writes.token Mark.openBrace.token).blank inner (c := ' ') rfl
  have closed := opened.blank (.token Mark.closeBrace.token) (c := ' ') rfl
  have opens : "\x7b " = Mark.openBrace.token.text ++ String.singleton ' ' := rfl
  have closes : " \x7d" = String.singleton ' ' ++ Mark.closeBrace.token.text := rfl
  rw [opens, closes, ← String.append_assoc]
  exact closed

/-- A block that ends on a line of its own. -/
theorem Writes.block {tokens : List Token} {text : String} (inner : Writes tokens text) :
    Writes ([Mark.openBrace.token] ++ tokens ++ [Mark.closeBrace.token])
      ("\x7b" ++ text ++ "\n\x7d") := by
  have closed := inner.blank (.token Mark.closeBrace.token) (c := '\n') rfl
  have opened := closed.opened (m := .openBrace) nofun
  have closes : "\n\x7d" = String.singleton '\n' ++ Mark.closeBrace.token.text := rfl
  rw [closes]
  simp only [String.append_assoc] at opened ⊢
  exact opened

/-! ## Written phrases -/

section Phrases

variable {α β : Type}

/-- A text that is written from the tokens of a phrase. -/
def Written (phrase : List Token → β → Prop) (item : β) (text : String) : Prop :=
  ∃ tokens, phrase tokens item ∧ AllSpelled tokens ∧ Writes tokens text

/-- What one phrase makes of some tokens, another makes of the same. -/
theorem Written.imp {first : List Token → α → Prop} {second : List Token → β → Prop} {item : α}
    {other : β} {text : String} (written : Written first item text)
    (also : ∀ tokens, first tokens item → second tokens other) : Written second other text := by
  rcases written with ⟨tokens, phrase, spelled, writes⟩
  exact ⟨tokens, also tokens phrase, spelled, writes⟩

theorem written_keyword {phrase : List Token → β → Prop} {item : β} (k : Keyword)
    (single : phrase [k.token] item) : Written phrase item k.text :=
  ⟨_, single, AllSpelled.cons_iff.mpr ⟨rfl, nofun⟩, .token k.token⟩

/-- A list whose written form grows item by item, with a separator before each further
item. -/
theorem written_intercalate {listed : List Token → List β → Prop} {phrase : List Token → β → Prop}
    {separator : String}
    (single : ∀ item text, Written phrase item text → Written listed [item] text)
    (snoc : ∀ items item before text, Written listed items before → Written phrase item text →
      Written listed (items ++ [item]) (before ++ separator ++ text))
    {item : α → β} {text : α → String} {items : List α} (nonempty : items ≠ [])
    (each : ∀ a ∈ items, Written phrase (item a) (text a)) :
    Written listed (items.map item) (separator.intercalate (items.map text)) := by
  induction items using List.reverseRecOn with
  | nil => exact absurd rfl nonempty
  | append_singleton items a ih =>
      rcases List.forall_mem_append.mp each with ⟨others, own⟩
      have last := own a List.mem_cons_self
      by_cases alone : items = []
      · subst alone
        simpa using single _ _ last
      · have texts : items.map text ≠ [] := fun none => alone (List.map_eq_nil_iff.mp none)
        have whole := snoc _ _ _ _ (ih alone others) last
        rw [List.map_append, List.map_append, List.map_singleton, List.map_singleton,
          String.intercalate_append_of_ne_nil texts (List.cons_ne_nil _ _),
          String.intercalate_singleton]
        exact whole

/-- A series with commas. -/
theorem written_series {separator : List Token → Prop} {phrase : List Token → β → Prop}
    (comma : separator [Mark.comma.token]) {item : α → β} {text : α → String} {items : List α}
    (nonempty : items ≠ []) (each : ∀ a ∈ items, Written phrase (item a) (text a)) :
    Written (Series separator phrase) (items.map item) (", ".intercalate (items.map text)) := by
  apply written_intercalate _ _ nonempty each
  · rintro item text written
    exact written.imp fun _ phrase => .single phrase
  · rintro items item before text ⟨first, series, spelled, writes⟩ ⟨last, phrase, spelled', writes'⟩
    exact ⟨_, .snoc series comma phrase, spelled.separated .comma spelled',
      writes.behind writes' (m := .comma) trivial⟩

/-- Items on lines of their own. -/
theorem written_lines {phrase : List Token → β → Prop} {item : α → β} {text : α → String}
    {items : List α} (each : ∀ a ∈ items, Written phrase (item a) (text a)) :
    Written (Repeated phrase) (items.map item)
      (String.join (items.map fun a => "\n    " ++ text a)) := by
  induction items using List.reverseRecOn with
  | nil => exact ⟨[], .nil, nofun, .nil⟩
  | append_singleton items a ih =>
      rcases List.forall_mem_append.mp each with ⟨others, own⟩
      rcases ih others with ⟨before, repeated, spelled, writes⟩
      rcases own a List.mem_cons_self with ⟨tokens, phrase, spelled', writes'⟩
      have indented := (((writes'.leading (c := ' ') rfl).leading (c := ' ') rfl).leading
        (c := ' ') rfl).leading (c := ' ') rfl
      have line := writes.blank indented (c := '\n') rfl
      have blanks : "\n    " = String.singleton '\n' ++ (String.singleton ' ' ++
        (String.singleton ' ' ++ (String.singleton ' ' ++ String.singleton ' '))) := rfl
      have last : String.join ([a].map fun a => "\n    " ++ text a) = "\n    " ++ text a := by
        rw [List.map_singleton, String.join_cons, String.join_nil, String.append_empty]
      rw [List.map_append, List.map_append, String.join_append, last]
      refine ⟨before ++ tokens, .snoc repeated phrase, ?_, ?_⟩
      · exact AllSpelled.append_iff.mpr ⟨spelled, spelled'⟩
      · rw [blanks]
        rw [blanks] at line
        simpa only [String.append_assoc] using line

end Phrases

end Cellular
