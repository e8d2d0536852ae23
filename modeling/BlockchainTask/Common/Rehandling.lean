import BlockchainTask.Common.Exception

/-! # Errors that are handled twice

What `PriceTemplate.bulkUpdate` throws has gone through `errorHandler` and goes
through it again in `run`. The handler looks at nothing but the message, and of
its nine answers all but one match the test that led to them. The answer to an
undetected network is the text of an unused code; it is empty, so the next
handler does not know it and takes it for an unknown error. -/
namespace BlockchainTask.Common.Rehandling
open BlockchainTask.Common.Exception BlockchainTask.Common.Exception.ExceptionCode

def level : Thrown → Option ExceptionLevel
  | .error _ => none
  | .exception _ l _ => some l

/-- Handling the handled error again keeps its code and its level. -/
def StableUnderRehandling (e : Thrown) : Prop :=
  (errorHandler (errorHandler e)).code = (errorHandler e).code ∧
    level (errorHandler (errorHandler e)) = level (errorHandler e)

/-- What the handler can throw, in the order of its tests. -/
def answers : List (String × ExceptionLevel) :=
  [(ERR1002, .Normal), (ERR1003, .Normal), (ERR004, .Normal), (ERR1005, .Normal),
   (ERR1009, .Normal), (ERR1010, .Normal), (ERR1008, .Fatal), (ERR1007, .Fatal),
   (ERR1001, .Fatal)]

theorem errorHandler_mem_answers (e : Thrown) :
    ∃ m l, (m, l) ∈ answers ∧ errorHandler e = .exception m l (some e) := by
  unfold errorHandler
  repeat' split
  all_goals exact ⟨_, _, by simp [answers], rfl⟩

theorem matchesCode_congr {e e' : Thrown} (h : e.message = e'.message) (pattern : String) :
    e.matchesCode pattern = e'.matchesCode pattern := by
  simp only [Thrown.matchesCode, h]

/-- The handler decides by the message alone. -/
theorem errorHandler_congr {e e' : Thrown} (h : e.message = e'.message) :
    (errorHandler e).message = (errorHandler e').message ∧
      level (errorHandler e) = level (errorHandler e') := by
  unfold errorHandler
  simp only [matchesCode_congr h]
  repeat' split
  all_goals exact ⟨rfl, rfl⟩

theorem code_eq_bind {e : Thrown} (h : e.isException) :
    e.code = e.message.bind getExceptionCode := by
  cases e with
  | error m => cases h
  | exception m l data => rfl

theorem code_errorHandler (e : Thrown) :
    (errorHandler e).code = (errorHandler e).message.bind getExceptionCode := by
  obtain ⟨m, l, he⟩ := errorHandler_exception e
  rw [he]
  exact code_eq_bind rfl

/-- Every answer but the empty one is recognised, and answered by itself. -/
theorem answers_recognised : ∀ a ∈ answers, a.1 ≠ ERR004 →
    (errorHandler (rawError a.1)).message = some a.1 ∧
      level (errorHandler (rawError a.1)) = some a.2 := by
  decide +kernel

theorem empty_unrecognised :
    level (errorHandler (rawError ERR004)) = some .Fatal := by
  decide +kernel

theorem stable_iff_message {e : Thrown} {m : String} {l : ExceptionLevel}
    (hanswer : (m, l) ∈ answers) (he : errorHandler e = .exception m l (some e)) :
    StableUnderRehandling e ↔ m ≠ ERR004 := by
  have hraw : (errorHandler e).message = (rawError m).message := by
    rw [he]
    rfl
  have hsame := errorHandler_congr hraw
  constructor
  · rintro ⟨-, hlevel⟩ rfl
    -- the empty answer is a Normal one, and what it turns into is not
    rw [hsame.2, empty_unrecognised, he] at hlevel
    have hl : l = .Fatal := (Option.some.inj hlevel).symm
    subst hl
    exact absurd hanswer (by decide +kernel)
  · intro hm
    obtain ⟨hmessage, hlevel⟩ := answers_recognised (m, l) hanswer hm
    refine ⟨?_, ?_⟩
    · rw [code_errorHandler, hsame.1, hmessage, he]
      rfl
    · rw [hsame.2, hlevel, he]
      rfl

/-- The branch of `errorHandler` that throws the empty text. -/
theorem message_empty_iff {e : Thrown} {m : String} {l : ExceptionLevel}
    (he : errorHandler e = .exception m l (some e)) :
    m = ERR004 ↔ e.matchesCode ERR1004 ∧ ¬ e.matchesCode ERR1002 ∧ ¬ e.matchesCode ERR1003 := by
  unfold errorHandler at he
  repeat' split at he
  all_goals
    obtain ⟨rfl, rfl, -⟩ := Thrown.exception.inj he
    simp [*]
  all_goals decide +kernel

/-- A handled error keeps its code and level under a second handling exactly
when it was not told from its message that no network is detected. -/
theorem errorHandler_stable_iff (e : Thrown) :
    StableUnderRehandling e ↔ (e.matchesCode ERR1004 →
      e.matchesCode ERR1002 ∨ e.matchesCode ERR1003) := by
  obtain ⟨m, l, hanswer, he⟩ := errorHandler_mem_answers e
  rw [stable_iff_message hanswer he, ne_eq, message_empty_iff he]
  tauto

/-- The message with which the provider reports an unreachable network. -/
theorem errorHandler_unstable :
    ¬ ∀ e : Thrown, StableUnderRehandling e := by
  intro hall
  have h := (hall (rawError "could not detect network")).2
  revert h
  decide +kernel

end BlockchainTask.Common.Rehandling
