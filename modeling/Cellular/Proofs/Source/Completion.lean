import Cellular.Proofs.Source.Derived
import Cellular.Proofs.Source.Literals

/-!
# Unfinished programs can be finished

Whatever place in a program the reader is at, there are tokens that lead from there to the
end of a program. They close what is open, from the inside out: the phrase that has been
read, the brackets around it, and the declaration.
-/

namespace Cellular

/-! ## Sample tokens -/

/-- A token of each terminal. The name is no keyword. -/
def Terminal.sample : Terminal → Token
  | dimensionality => ⟨dimensionality, "1D", .start⟩
  | name => ⟨name, "a", .start⟩
  | integer => ⟨integer, "0", .start⟩
  | comparison => ⟨comparison, "==", .start⟩
  | keyword k => ⟨keyword k, k.text, .start⟩
  | mark m => ⟨mark m, m.text, .start⟩

theorem Terminal.sample_spelled (terminal : Terminal) : terminal.sample.Spelled := by
  cases terminal with
  | dimensionality => exact ⟨'1', Or.inl rfl, rfl⟩
  | name => exact ⟨'a', [], rfl, rfl, by simp⟩
  | integer =>
      exact ⟨['0'], Or.inl rfl, List.cons_ne_nil _ _, List.forall_mem_singleton.mpr rfl⟩
  | comparison => exact ⟨.equal, rfl⟩
  | keyword _ | mark _ => rfl

theorem Terminal.sample_short (terminal : Terminal) : terminal.sample.isOverlong = false := by
  cases terminal <;> rfl

theorem Terminal.sample_ordinary {terminal : Terminal} (isName : terminal.sample.terminal = .name)
    (k : Keyword) : k.text ≠ terminal.sample.text := by
  cases terminal with
  | name => cases k <;> decide
  | _ => exact absurd isName nofun

/-! ## Completions -/

/-- Some tokens lead from the place to the end of a program, and their integers are short. -/
def Place.Completes (place : Place) : Prop :=
  ∃ tokens final program, Run place tokens final ∧ final.finish? = some program ∧ AllShort tokens

theorem Place.Completes.before {place next : Place} (completes : next.Completes)
    (terminal : Terminal) (stepped : place.step terminal.sample = some next) :
    place.Completes := by
  rcases completes with ⟨tokens, final, program, run, finished, short⟩
  have admits : Admits place.wanted terminal.sample :=
    ⟨wanted_of_step stepped, terminal.sample_spelled,
      fun isName k _ => Terminal.sample_ordinary isName k⟩
  exact ⟨_, final, program, .token admits stepped run, finished,
    List.forall_mem_cons.mpr ⟨terminal.sample_short, short⟩⟩

namespace Place

/-! ### Behind the values of declarations -/

theorem completes_of_finish? {place : Place} {program : List Declaration}
    (finished : place.finish? = some program) : place.Completes :=
  ⟨[], place, program, .done, finished, nofun⟩

theorem completes_between (finished : List Declaration) : (between finished).Completes :=
  completes_of_finish? rfl

theorem completes_value (opening : Opening) : (value opening).Completes :=
  (completes_between _).before (.keyword .wrap) rfl

/-! ### Sizes -/

variable {opening : Opening}

theorem completes_sizeEnd (r : Nat) (sizes : List (Name × Int)) :
    (sizeEnd opening r sizes).Completes :=
  (completes_between _).before (.mark .closeParen) rfl

theorem completes_sizeEqual (r : Nat) (sizes : List (Name × Int)) (axis : Name) :
    (sizeEqual opening r sizes axis).Completes :=
  (completes_sizeEnd ..).before .integer rfl

theorem completes_sizeAxis (r : Nat) (sizes : List (Name × Int)) (axis : Name) :
    (sizeAxis opening r sizes axis).Completes :=
  (completes_sizeEqual ..).before (.mark .equal) rfl

theorem completes_size (r : Nat) (sizes : List (Name × Int)) :
    (size opening r sizes).Completes :=
  (completes_sizeAxis ..).before .name rfl

/-! ### Static boundaries -/

theorem completes_staticState (state : Name) : (staticState opening state).Completes :=
  (completes_between _).before (.mark .closeParen) rfl

theorem completes_staticOpen : (staticOpen opening).Completes :=
  (completes_staticState _).before .name rfl

/-! ### Offsets -/

theorem completes_offsetEnd (rules : List OffsetRule) : (offsetEnd opening rules).Completes :=
  (completes_between _).before (.mark .closeBrace) rfl

theorem completes_offsetDirection (rules : List OffsetRule) (axis : Name) (direction : Direction) :
    (offsetDirection opening rules axis direction).Completes :=
  (completes_offsetEnd _).before .integer rfl

theorem completes_offsetAxis (rules : List OffsetRule) (axis : Name) :
    (offsetAxis opening rules axis).Completes :=
  (completes_offsetDirection ..).before (.mark .plus) rfl

/-! ### States -/

theorem completes_attributeEnd (entry : OpenState) (list : AttributeList) (last : Attribute) :
    (attributeEnd entry list last).Completes := by
  cases list with
  | alone => exact (completes_between _).before (.mark .closeBrace) rfl
  | grouped finished =>
      have ended : (stateEnd entry.opening (entered entry (last :: finished))).Completes :=
        (completes_between _).before (.mark .closeBrace) rfl
      exact ended.before (.mark .closeParen) rfl

theorem completes_attributeToken (entry : OpenState) (list : AttributeList) (key token : Name) :
    (attributeToken entry list key token).Completes :=
  (completes_attributeEnd ..).before (.mark .closeParen) rfl

theorem completes_attributeOpen (entry : OpenState) (list : AttributeList) (key : Name) :
    (attributeOpen entry list key).Completes :=
  (completes_attributeToken ..).before .name rfl

/-! ### Rules -/

/-- The levels of a condition are closed from the inside out. -/
theorem completes_operandEnd (rule : OpenRule) : (operandEnd rule).Completes := by
  rcases rule with ⟨opening, earlier, source, target, level, outer⟩
  induction outer generalizing level with
  | nil => exact (completes_between _).before (.mark .closeBrace) rfl
  | cons enclosing outer ih =>
      exact (ih (enclosing.operand level.close)).before (.mark .closeParen) rfl

theorem completes_testBound (rule : OpenRule) (state : Name) (comparison : Comparison) :
    (testBound rule state comparison).Completes :=
  (completes_operandEnd _).before .integer rfl

theorem completes_testComparison (rule : OpenRule) (state : Name) :
    (testComparison rule state).Completes :=
  (completes_testBound ..).before .comparison rfl

theorem completes_testState (rule : OpenRule) (state : Name) :
    (testState rule state).Completes :=
  (completes_testComparison ..).before (.mark .closeParen) rfl

theorem completes_testOpen (rule : OpenRule) : (testOpen rule).Completes :=
  (completes_testState ..).before .name rfl

theorem completes_test (rule : OpenRule) : (test rule).Completes :=
  (completes_testOpen _).before (.mark .openParen) rfl

theorem completes_operand (rule : OpenRule) : (operand rule).Completes :=
  (completes_test _).before (.keyword .neighborhood) rfl

theorem completes_ruleAssign (rules : List (Rule Name)) (source target : Name) :
    (ruleAssign opening rules source target).Completes :=
  (completes_operand _).before (.mark .assign) rfl

theorem completes_ruleTarget (rules : List (Rule Name)) (source : Name) :
    (ruleTarget opening rules source).Completes :=
  (completes_ruleAssign ..).before .name rfl

theorem completes_ruleTo (rules : List (Rule Name)) (source : Name) :
    (ruleTo opening rules source).Completes :=
  (completes_ruleTarget ..).before (.keyword .toWord) rfl

/-! ### All places -/

/-- Every place in an unfinished program is on the way to a finished one. -/
theorem completes (place : Place) : place.Completes := by
  cases place with
  | between finished => exact completes_between finished
  | key opening => exact (completes_value opening).before (.mark .assign) rfl
  | value opening => exact completes_value opening
  | rank opening r => exact completes_of_finish? rfl
  | sizesOpen opening r => exact (completes_size r []).before (.mark .openParen) rfl
  | size opening r sizes => exact completes_size r sizes
  | sizeAxis opening r sizes axis => exact completes_sizeAxis r sizes axis
  | sizeEqual opening r sizes axis => exact completes_sizeEqual r sizes axis
  | sizeEnd opening r sizes => exact completes_sizeEnd r sizes
  | static opening => exact completes_of_finish? rfl
  | staticColons opening => exact completes_staticOpen.before (.mark .openParen) rfl
  | staticOpen opening => exact completes_staticOpen
  | staticState opening state => exact completes_staticState state
  | block opening => exact (completes_between _).before (.mark .closeBrace) rfl
  | firstName opening name => exact (completes_between _).before (.mark .closeBrace) rfl
  | offset opening rules => exact (completes_offsetAxis rules _).before .name rfl
  | offsetAxis opening rules axis => exact completes_offsetAxis rules axis
  | offsetDirection opening rules axis direction =>
      exact completes_offsetDirection rules axis direction
  | offsetEnd opening rules => exact completes_offsetEnd rules
  | state entry => exact (completes_between _).before (.mark .closeBrace) rfl
  | stateColons entry =>
      exact (completes_attributeEnd entry .alone .defaultMark).before (.keyword .defaultWord) rfl
  | attributeStart entry finished =>
      exact (completes_attributeEnd entry (.grouped finished) .defaultMark).before
        (.keyword .defaultWord) rfl
  | attributeKey entry list key =>
      exact (completes_attributeOpen entry list key).before (.mark .openParen) rfl
  | attributeOpen entry list key => exact completes_attributeOpen entry list key
  | attributeToken entry list key token => exact completes_attributeToken entry list key token
  | attributeEnd entry list last => exact completes_attributeEnd entry list last
  | stateEnd opening entries => exact (completes_between _).before (.mark .closeBrace) rfl
  | ruleSource opening rules => exact (completes_ruleTo rules _).before .name rfl
  | ruleTo opening rules source => exact completes_ruleTo rules source
  | ruleTarget opening rules source => exact completes_ruleTarget rules source
  | ruleAssign opening rules source target => exact completes_ruleAssign rules source target
  | operand rule => exact completes_operand rule
  | test rule => exact completes_test rule
  | testOpen rule => exact completes_testOpen rule
  | testState rule state => exact completes_testState rule state
  | testComparison rule state => exact completes_testComparison rule state
  | testBound rule state comparison => exact completes_testBound rule state comparison
  | operandEnd rule => exact completes_operandEnd rule

end Place

end Cellular
