import ShapedJson.Proofs.Generation.Attempts
import ShapedJson.Proofs.Generation.Simulation

/-!
# Runs one after another

A run that is exhausted can be taken up by another run.  The two together are what one run with the
retries of both and one more is: it ends as the second one does, its attempts are those of the two,
and as many questions are asked.  A run that gives a value gives it with more retries as well.
-/

namespace ShapedJson

/-- The run is the first one and the second one after it, which numbers its attempts from so much
less on. -/
structure Run.Joins {σ : Type} (first second : Run σ) (k : Nat) (whole : Run σ) : Prop where
  ending : whole.ending = second.ending
  attempts : whole.attempts = first.attempts ++ second.attempts.map (Attempt.movedBy k)
  state : whole.state = second.state

namespace Generator

section

variable {σ : Type} {g : Generator σ} {rules : AttemptRules} {messages : List Message}
  {validator : Validator}

/-- The first attempt of an exhausted run failed. -/
theorem exists_error_of_exhausted {retries number : Nat} {state : σ} {last : AttemptError}
    (h : (g.attemptsFrom rules messages validator retries number state).ending =
      .exhausted last) :
    ∃ a log next e,
      g.attempt rules messages validator number state = (.ended a, log, next) ∧
        a.result = .error e := by
  rcases hattempt : g.attempt rules messages validator number state with ⟨out, log, next⟩
  cases out with
  | cancelled reason =>
      rw [attemptsFrom_of_cancelled hattempt] at h
      cases h
  | endless =>
      rw [attemptsFrom_of_endless hattempt] at h
      cases h
  | ended a =>
      cases hresult : a.result with
      | ok v =>
          rw [attemptsFrom_of_value hattempt hresult] at h
          cases h
      | error e => exact ⟨a, log, next, e, rfl, hresult⟩

/-- An exhausted run and a run after it are the run with the retries of both and one more. -/
theorem attemptsFrom_joins {m number start k : Nat} {state : σ} {last : AttemptError}
    (h : (g.attemptsFrom rules messages validator m number state).ending = .exhausted last)
    (hstart : start + k = number + (m + 1)) (n : Nat) :
    let first := g.attemptsFrom rules messages validator m number state
    first.Joins (g.attemptsFrom rules messages validator n start first.state) k
      (g.attemptsFrom rules messages validator (m + n + 1) number state) := by
  obtain ⟨a, log, next, e, hattempt, hresult⟩ := exists_error_of_exhausted h
  intro first
  rw [attemptsFrom_succ_of_error hattempt hresult]
  cases m with
  | zero =>
      -- the second run is what follows the one attempt, but for its numbers
      have hfirst : first = _ := attemptsFrom_zero_of_error hattempt hresult
      have hrest := @attemptsFrom_matches _ _ _ g g rules messages validator
        (.refl rules.patience messages g) n start k next next rfl
      rw [hstart] at hrest
      rw [hfirst, Nat.zero_add]
      exact ⟨hrest.ending, congrArg (a :: ·) hrest.attempts, hrest.state.symm⟩
  | succ m =>
      have hfirst : first = _ := attemptsFrom_succ_of_error hattempt hresult
      rw [attemptsFrom_succ_of_error hattempt hresult] at h
      have hexhausted : (g.attemptsFrom rules messages validator m (number + 1) next).ending =
          .exhausted last := h
      have hstart : start + k = number + 1 + (m + 1) := by omega
      have hrest := attemptsFrom_joins hexhausted hstart n
      rw [hfirst, Nat.add_right_comm m 1 n]
      exact ⟨hrest.ending, congrArg (a :: ·) hrest.attempts, hrest.state⟩
termination_by m

/-- A run that gives a value is the same with more retries, but for its records. -/
theorem attemptsFrom_add_of_value {m number : Nat} {state : σ} {v : Json}
    (h : (g.attemptsFrom rules messages validator m number state).ending = .value v) (n : Nat) :
    (g.attemptsFrom rules messages validator m number state).Matches Eq 0
      (g.attemptsFrom rules messages validator (m + n) number state) := by
  rcases hattempt : g.attempt rules messages validator number state with ⟨out, log, next⟩
  cases out with
  | cancelled reason =>
      rw [attemptsFrom_of_cancelled hattempt] at h
      cases h
  | endless =>
      rw [attemptsFrom_of_endless hattempt] at h
      cases h
  | ended a =>
      cases hresult : a.result with
      | ok v =>
          rw [attemptsFrom_of_value hattempt hresult, attemptsFrom_of_value hattempt hresult]
          exact ⟨rfl, rfl, rfl⟩
      | error e =>
          cases m with
          | zero =>
              rw [attemptsFrom_zero_of_error hattempt hresult] at h
              cases h
          | succ m =>
              rw [attemptsFrom_succ_of_error hattempt hresult] at h
              have hvalue : (g.attemptsFrom rules messages validator m (number + 1) next).ending =
                  .value v := h
              have hrest := attemptsFrom_add_of_value hvalue n
              rw [Nat.add_right_comm, attemptsFrom_succ_of_error hattempt hresult,
                attemptsFrom_succ_of_error hattempt hresult]
              exact ⟨hrest.ending, congrArg (a :: ·) hrest.attempts, hrest.state⟩
termination_by m

/-- Without cancellations a run gives a value, is exhausted, or waits for ever, and the last only
when waits have no end. -/
theorem ending_of_not_cancelled (retries : Nat) {number : Nat} {state : σ}
    (h : ∀ state reason, (g.submit messages state).reply ≠ .cancelled reason) :
    let run := g.attemptsFrom rules messages validator retries number state
    (∃ v, run.ending = .value v) ∨ (∃ last, run.ending = .exhausted last) ∨
      (run.ending = .endless ∧ rules.patience.ends = false) := by
  intro run
  rcases hattempt : g.attempt rules messages validator number state with ⟨out, log, next⟩
  cases out with
  | cancelled reason =>
      exact absurd (Reply.ends_cancelled_iff.1 (ends_of_attempt hattempt rfl).2) (h state reason)
  | endless =>
      have hrun : run = _ := attemptsFrom_of_endless hattempt
      rw [hrun]
      exact .inr (.inr ⟨rfl, (Reply.ends_endless_iff.1 (ends_of_attempt hattempt rfl).2).2⟩)
  | ended a =>
      cases hresult : a.result with
      | ok v =>
          have hrun : run = _ := attemptsFrom_of_value hattempt hresult
          rw [hrun]
          exact .inl ⟨v, rfl⟩
      | error e =>
          cases retries with
          | zero =>
              have hrun : run = _ := attemptsFrom_zero_of_error hattempt hresult
              rw [hrun]
              exact .inr (.inl ⟨e, rfl⟩)
          | succ retries =>
              have hrun : run = _ := attemptsFrom_succ_of_error hattempt hresult
              rw [hrun]
              exact ending_of_not_cancelled retries h
termination_by retries

end

/-- Runs compose.  An exhausted run and a run on the replies that it leaves end as the run with the
retries of both and one more does, after as many questions and with the same attempts but for their
numbers.  A run that gives a value gives it after the same questions with any more retries. -/
theorem run?_composes (replies : Nat → Reply) (rules : AttemptRules) (prompt : Text)
    (validator : Validator) (m n : Nat) (tape : Tape (List Message)) :
    ∃ first second whole i j,
      (ofSequence replies).run? rules prompt validator m tape = some first ∧
      (ofSequence replies).run? rules prompt validator n first.state = some second ∧
      (ofSequence replies).run? rules prompt validator (m + n + 1 : Nat) tape = some whole ∧
      first.state = tape.advanceBy i (Prompt.conversation prompt) ∧
      second.state = first.state.advanceBy j (Prompt.conversation prompt) ∧
      (∀ last, first.ending = .exhausted last →
        first.Joins second (m + 1) whole ∧
        whole.state = tape.advanceBy (i + j) (Prompt.conversation prompt) ∧
        ((∀ k reason, replies k ≠ .cancelled reason) →
          (∃ v, second.ending = .value v) ∨ (∃ last, second.ending = .exhausted last) ∨
            (second.ending = .endless ∧ rules.patience.ends = false))) ∧
      (∀ v, first.ending = .value v → ∀ larger : Nat, m ≤ larger →
        ∃ run, (ofSequence replies).run? rules prompt validator larger tape = some run ∧
          run.ending = .value v ∧ run.attempts = first.attempts ∧ run.state = first.state) := by
  obtain ⟨i, hi⟩ := exists_state_eq_advanceBy replies rules (Prompt.conversation prompt) validator
    m 1 tape
  obtain ⟨j, hj⟩ := exists_state_eq_advanceBy replies rules (Prompt.conversation prompt) validator
    n 1 (tape.advanceBy i (Prompt.conversation prompt))
  rw [← hi] at hj
  refine ⟨_, _, _, i, j, rfl, rfl, rfl, hi, hj, ?_, ?_⟩
  · intro last hexhausted
    have hstart : 1 + (m + 1) = 1 + (m + 1) := rfl
    have hjoins := attemptsFrom_joins hexhausted hstart n
    refine ⟨hjoins, ?_, ?_⟩
    · rw [hjoins.state, hj, hi, Tape.advanceBy_advanceBy]
    · intro huncancelled
      exact ending_of_not_cancelled n fun state reason => huncancelled state.position reason
  · intro v hvalue larger hlarger
    obtain ⟨more, rfl⟩ := Nat.exists_eq_add_of_le hlarger
    have hmatches := attemptsFrom_add_of_value hvalue more
    have hattempts := hmatches.attempts
    rw [Attempt.movedBy_zero, List.map_id] at hattempts
    exact ⟨_, rfl, hmatches.ending.trans hvalue, hattempts, hmatches.state.symm⟩

/-- One retry for an error and a text that is no JSON, and one retry after them: a run with three
retries gives the value of the third reply, as the second run does. -/
theorem run?_composes_at_third_reply :
    let replies := Tape.entries .silent
      [.raised (.timeout (text "late")), .text (text "\x7b"), .text (text "null"), .silent]
    let rules := AttemptRules.mk .unlimited true
    ∃ first second whole last,
      (ofSequence replies).run? rules (text "p") ⟨.leaf .number⟩ 1 .start = some first ∧
      first.ending = .exhausted last ∧
      (ofSequence replies).run? rules (text "p") ⟨.leaf .number⟩ 1 first.state = some second ∧
      second.ending = .value .null ∧
      (ofSequence replies).run? rules (text "p") ⟨.leaf .number⟩ 3 .start = some whole ∧
      first.Joins second 2 whole ∧
      whole.state = Tape.start.advanceBy 3 (Prompt.conversation (text "p")) := by
  intro replies rules
  obtain ⟨first, second, whole, i, j, hfirst, hsecond, hwhole, -, -, hjoins, -⟩ :=
    run?_composes replies rules (text "p") ⟨.leaf .number⟩ 1 1 .start
  obtain ⟨last, hlast⟩ : ∃ last, first.ending = .exhausted last := by
    cases hfirst
    exact ⟨_, rfl⟩
  have hvalue : second.ending = .value .null := by
    cases hfirst
    cases hsecond
    rfl
  obtain ⟨hjoins, hstate, -⟩ := hjoins last hlast
  have hposition : whole.state.position = 3 := by
    cases hwhole
    rfl
  have hasked : 0 + (i + j) = 3 := by
    rw [← hposition, hstate]
    rfl
  rw [show i + j = 3 by omega] at hstate
  exact ⟨first, second, whole, last, hfirst, hlast, hsecond, hvalue, hwhole, hjoins, hstate⟩

end Generator

end ShapedJson
