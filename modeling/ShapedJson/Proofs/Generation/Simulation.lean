import ShapedJson.Proofs.Generation.Runs

/-!
# Runs of two generators side by side

Two generators are asked the same questions.  When what comes of each question is the same to one
who waits, and their states stay related, their runs end alike and have the same attempts, whatever
numbers the first attempts have.  A generator beside itself shows what its runs keep.
-/

namespace ShapedJson

/-- The attempt with a number so much greater. -/
def Attempt.movedBy (k : Nat) (a : Attempt) : Attempt := { a with number := a.number + k }

@[simp] theorem Attempt.movedBy_zero : Attempt.movedBy 0 = id := rfl

/-- What comes of an attempt with a number so much greater. -/
def Attempted.movedBy (k : Nat) : Attempted → Attempted
  | .ended a => .ended (a.movedBy k)
  | .cancelled reason => .cancelled reason
  | .endless => .endless

/-- The runs end alike, their attempts differ in their numbers only, and their states are related. -/
structure Run.Matches {σ τ : Type} (r : σ → τ → Prop) (k : Nat) (run : Run σ) (run' : Run τ) :
    Prop where
  ending : run'.ending = run.ending
  attempts : run'.attempts = run.attempts.map (Attempt.movedBy k)
  state : r run.state run'.state

namespace Generator

variable {σ τ : Type}

/-- From related states the same comes of a question, and the states after it are related. -/
def Simulates (r : σ → τ → Prop) (patience : Patience) (messages : List Message) (g : Generator σ)
    (g' : Generator τ) : Prop :=
  ∀ state state', r state state' →
    (g'.ask patience messages state').1 = (g.ask patience messages state).1 ∧
      r (g.ask patience messages state).2.2 (g'.ask patience messages state').2.2

variable {r : σ → τ → Prop} {g : Generator σ} {g' : Generator τ} {rules : AttemptRules}
  {messages : List Message} {validator : Validator}

theorem Simulates.refl (patience : Patience) (messages : List Message) (g : Generator σ) :
    Simulates Eq patience messages g g := by
  rintro state _ rfl
  exact ⟨rfl, rfl⟩

/-- One attempt with each of two generators. -/
theorem attempt_of_simulates (h : Simulates r rules.patience messages g g') (number k : Nat)
    {state : σ} {state' : τ} (hstate : r state state') :
    (g'.attempt rules messages validator (number + k) state').1 =
        (g.attempt rules messages validator number state).1.movedBy k ∧
      r (g.attempt rules messages validator number state).2.2
        (g'.attempt rules messages validator (number + k) state').2.2 := by
  obtain ⟨hwait, hnext⟩ := h state state' hstate
  unfold attempt
  rcases hask : g.ask rules.patience messages state with ⟨wait, log, next⟩
  rcases hask' : g'.ask rules.patience messages state' with ⟨wait', log', next'⟩
  rw [hask, hask'] at hwait hnext
  obtain rfl : wait' = wait := hwait
  cases wait' <;> exact ⟨rfl, hnext⟩

/-- All attempts with each of two generators. -/
theorem attemptsFrom_matches (h : Simulates r rules.patience messages g g')
    (retries number k : Nat) {state : σ} {state' : τ} (hstate : r state state') :
    (g.attemptsFrom rules messages validator retries number state).Matches r k
      (g'.attemptsFrom rules messages validator retries (number + k) state') := by
  obtain ⟨hout, hnext⟩ := @attempt_of_simulates _ _ _ _ _ _ _ validator h number k _ _ hstate
  rcases hattempt : g.attempt rules messages validator number state with ⟨out, log, next⟩
  rcases hattempt' : g'.attempt rules messages validator (number + k) state' with
    ⟨out', log', next'⟩
  rw [hattempt, hattempt'] at hout hnext
  obtain rfl : out' = out.movedBy k := hout
  -- both attempts come out in the same way, so both runs stop here or both go on
  cases out with
  | cancelled reason =>
      rw [attemptsFrom_of_cancelled hattempt, attemptsFrom_of_cancelled hattempt']
      exact ⟨rfl, rfl, hnext⟩
  | endless =>
      rw [attemptsFrom_of_endless hattempt, attemptsFrom_of_endless hattempt']
      exact ⟨rfl, rfl, hnext⟩
  | ended a =>
      cases hresult : a.result with
      | ok v =>
          rw [attemptsFrom_of_value hattempt hresult, attemptsFrom_of_value hattempt' hresult]
          exact ⟨rfl, rfl, hnext⟩
      | error e =>
          cases retries with
          | zero =>
              rw [attemptsFrom_zero_of_error hattempt hresult,
                attemptsFrom_zero_of_error hattempt' hresult]
              exact ⟨rfl, rfl, hnext⟩
          | succ retries =>
              have hrest := attemptsFrom_matches h retries (number + 1) k hnext
              rw [Nat.add_right_comm] at hrest
              rw [attemptsFrom_succ_of_error hattempt hresult,
                attemptsFrom_succ_of_error hattempt' hresult]
              exact ⟨hrest.ending, congrArg (a.movedBy k :: ·) hrest.attempts, hrest.state⟩
termination_by retries

/-- What is asked of a sequence is always the same conversation. -/
theorem exists_state_eq_advanceBy (replies : Nat → Reply) (rules : AttemptRules)
    (messages : List Message) (validator : Validator) (retries number : Nat)
    (tape : Tape (List Message)) :
    ∃ n, ((ofSequence replies).attemptsFrom rules messages validator retries number tape).state =
      tape.advanceBy n messages := by
  have hkept : Simulates
      (fun state state' => state' = state ∧ ∃ n, state = tape.advanceBy n messages)
      rules.patience messages (ofSequence replies) (ofSequence replies) := by
    rintro state _ ⟨rfl, n, rfl⟩
    refine ⟨rfl, rfl, ?_⟩
    cases honset : rules.patience.onset with
    | asks =>
        rw [ask_ofSequence messages _ honset]
        exact ⟨n + 1, Tape.advanceBy_advance tape n messages⟩
    | expired | immeasurable =>
        simp only [ask, honset]
        exact ⟨n, rfl⟩
  exact (@attemptsFrom_matches _ _ _ _ _ _ _ validator hkept retries number 0 tape tape
    ⟨rfl, 0, (Tape.advanceBy_zero tape messages).symm⟩).state.2

end Generator

end ShapedJson
