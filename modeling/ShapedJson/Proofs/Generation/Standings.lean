import ShapedJson.Proofs.Generation.Attempts
import ShapedJson.Proofs.Generation.Runs

/-!
# Where a run stands before its attempts

Before each attempt a run has made some attempts, all of them in vain, and has some retries left.
The number of the attempt and the retries left always make up the same sum.  Every attempt of the
run is made from where it stands then, and what comes of it is what the generator replies to a
question that it has been asked as many times before.
-/

namespace ShapedJson

/-! ## Questions -/

namespace Generator

variable {σ : Type}

/-- The state after a question has been asked so many times. -/
def stateAfter (g : Generator σ) (messages : List Message) (state : σ) : Nat → σ
  | 0 => state
  | n + 1 => (g.submit messages (g.stateAfter messages state n)).state

/-- What comes of a question that has been asked so many times before. -/
def outcome (g : Generator σ) (messages : List Message) (state : σ) (n : Nat) : Reply :=
  (g.submit messages (g.stateAfter messages state n)).reply

theorem stateAfter_ofSequence (replies : Nat → Reply) (messages : List Message)
    (tape : Tape (List Message)) (n : Nat) :
    (ofSequence replies).stateAfter messages tape n = tape.advanceBy n messages := by
  induction n with
  | zero => exact (tape.advanceBy_zero messages).symm
  | succ n ih =>
      rw [stateAfter, ih]
      exact tape.advanceBy_advance n messages

theorem outcome_ofSequence (replies : Nat → Reply) (messages : List Message)
    (tape : Tape (List Message)) (n : Nat) :
    (ofSequence replies).outcome messages tape n = replies (tape.position + n) := by
  rw [outcome, stateAfter_ofSequence]
  rfl

end Generator

/-! ## The attempts of a run -/

/-- How an attempt of a run came out, by the number of attempts before it.  One that the run
stopped in is not among the attempts that came to an end. -/
inductive Run.ComesOut {σ : Type} (run : Run σ) : Nat → Attempted → Prop
  | ended {i : Nat} {a : Attempt} (attempt : run.attempts[i]? = some a) : ComesOut run i (.ended a)
  | stopped {out : Attempted} (stops : out.ending? = some run.ending) :
      ComesOut run run.attempts.length out

namespace Run.ComesOut

variable {σ : Type} {ending : Ending} {a : Attempt} {log : List LogRecord} {state : σ} {i : Nat}
  {out : Attempted}

/-- The only attempt of a run that stopped in its first one. -/
theorem eq_stopped {first : Attempted} (h : ComesOut ⟨ending, [], log, state⟩ i out)
    (hfirst : first.ending? = some ending) : i = 0 ∧ out = first := by
  cases h with
  | ended attempt => cases attempt
  | stopped stops => exact ⟨rfl, Attempted.eq_of_ending? stops hfirst⟩

/-- The only attempt of a run that nothing stopped. -/
theorem eq_ended (h : ComesOut ⟨ending, [a], log, state⟩ i out)
    (hends : ∀ out : Attempted, out.ending? ≠ some ending) : i = 0 ∧ out = .ended a := by
  cases h with
  | ended attempt =>
      cases i with
      | zero =>
          cases attempt
          exact ⟨rfl, rfl⟩
      | succ j => cases attempt
  | stopped stops => exact absurd stops (hends out)

/-- An attempt of a run is its first one or one of the rest. -/
theorem cases_cons {rest : Run σ}
    (h : ComesOut ⟨rest.ending, a :: rest.attempts, log, state⟩ i out) :
    (i = 0 ∧ out = .ended a) ∨ ∃ j, i = j + 1 ∧ rest.ComesOut j out := by
  cases h with
  | ended attempt =>
      cases i with
      | zero =>
          cases attempt
          exact .inl ⟨rfl, rfl⟩
      | succ j => exact .inr ⟨j, rfl, .ended attempt⟩
  | stopped stops => exact .inr ⟨_, rfl, .stopped stops⟩

end Run.ComesOut

/-- The whole run is so many attempts with their records, and then the rest. -/
def Run.Resumes {σ : Type} (whole : Run σ) (count : Nat) (rest : Run σ) : Prop :=
  ∃ before log, before.length = count ∧
    whole = ⟨rest.ending, before ++ rest.attempts, log ++ rest.log, rest.state⟩

namespace Generator

variable {σ : Type}

/-- After so many failed attempts a run with so many retries stands before the next one, with so
many retries left and the generator in this state. -/
inductive Reaches (g : Generator σ) (rules : AttemptRules) (messages : List Message)
    (validator : Validator) (retries : Nat) (state : σ) : Nat → Nat → σ → Prop
  | start : Reaches g rules messages validator retries state 0 retries state
  | retry {failures left : Nat} {s next : σ} {a : Attempt} {log : List LogRecord}
      {e : AttemptError}
      (before : Reaches g rules messages validator retries state failures (left + 1) s)
      (attempt : g.attempt rules messages validator (failures + 1) s = (.ended a, log, next))
      (failed : a.result = .error e) :
      Reaches g rules messages validator retries state (failures + 1) left next

variable {g : Generator σ} {rules : AttemptRules} {messages : List Message}
  {validator : Validator} {retries failures left i : Nat} {state s : σ} {out : Attempted}

namespace Reaches

/-- The number of the next attempt and the retries left make up the retries and one more. -/
theorem balance (h : g.Reaches rules messages validator retries state failures left s) :
    failures + 1 + left = retries + 1 := by
  induction h with
  | start => omega
  | retry before attempt failed ih => omega

/-- A generator that is asked has been asked once for each attempt before. -/
theorem state_eq (h : g.Reaches rules messages validator retries state failures left s)
    (hasks : rules.patience.onset = .asks) : s = g.stateAfter messages state failures := by
  induction h with
  | start => rfl
  | retry before attempt failed ih =>
      rw [next_of_attempt hasks attempt, ih]
      rfl

/-- From where a run stands it goes on as the run with the retries left does. -/
theorem resumes (h : g.Reaches rules messages validator retries state failures left s) :
    (g.attemptsFrom rules messages validator retries 1 state).Resumes failures
      (g.attemptsFrom rules messages validator left (failures + 1) s) := by
  induction h with
  | start => exact ⟨[], [], rfl, rfl⟩
  | retry before attempt failed ih =>
      rename_i failures left s next a log e
      obtain ⟨attempts, records, hlength, hrun⟩ := ih
      rw [attemptsFrom_succ_of_error attempt failed] at hrun
      refine ⟨attempts ++ [a], records ++ (log ++ [Attempt.retried (failures + 1) e (left + 1)]),
        by simp [hlength], ?_⟩
      simp [hrun]

/-- Every attempt of a run is made from where the run stands before it. -/
theorem exists_attempt (h : g.Reaches rules messages validator retries state failures left s)
    (hout : (g.attemptsFrom rules messages validator left (failures + 1) s).ComesOut i out) :
    ∃ left' s' log next,
      g.Reaches rules messages validator retries state (failures + i) left' s' ∧
        g.attempt rules messages validator (failures + i + 1) s' = (out, log, next) := by
  induction left using Nat.strongRecOn generalizing failures s i with
  | ind left ih =>
      rcases hattempt : g.attempt rules messages validator (failures + 1) s with ⟨first, log, next⟩
      -- the first attempt is made here, so what remains are those after it
      have hfirst : i = 0 ∧ out = first → ∃ left' s' log next,
          g.Reaches rules messages validator retries state (failures + i) left' s' ∧
            g.attempt rules messages validator (failures + i + 1) s' = (out, log, next) := by
        rintro ⟨rfl, rfl⟩
        exact ⟨left, s, log, next, h, hattempt⟩
      cases first with
      | cancelled reason =>
          rw [attemptsFrom_of_cancelled hattempt] at hout
          exact hfirst (hout.eq_stopped rfl)
      | endless =>
          rw [attemptsFrom_of_endless hattempt] at hout
          exact hfirst (hout.eq_stopped rfl)
      | ended a =>
          cases hresult : a.result with
          | ok v =>
              rw [attemptsFrom_of_value hattempt hresult] at hout
              exact hfirst (hout.eq_ended fun out => by cases out <;> nofun)
          | error e =>
              cases left with
              | zero =>
                  rw [attemptsFrom_zero_of_error hattempt hresult] at hout
                  exact hfirst (hout.eq_ended fun out => by cases out <;> nofun)
              | succ left =>
                  rw [attemptsFrom_succ_of_error hattempt hresult] at hout
                  rcases hout.cases_cons with hhere | ⟨j, rfl, hrest⟩
                  · exact hfirst hhere
                  · have hnext := ih left (Nat.lt_succ_self left) (h.retry hattempt hresult) hrest
                    rwa [Nat.add_assoc failures 1 j, Nat.add_comm 1 j] at hnext

end Reaches

/-! ## Whole runs -/

theorem exists_reaches_of_comesOut
    (h : (g.attemptsFrom rules messages validator retries 1 state).ComesOut i out) :
    ∃ left s log next, g.Reaches rules messages validator retries state i left s ∧
      g.attempt rules messages validator (i + 1) s = (out, log, next) := by
  have hmade := Reaches.start.exists_attempt h
  rwa [Nat.zero_add] at hmade

/-- The attempts that come to an end are numbered in order, and each has the text that the
generator replied to it. -/
theorem raw_of_getElem?_attempts {a : Attempt}
    (h : (g.attemptsFrom rules messages validator retries 1 state).attempts[i]? = some a) :
    a.number = i + 1 ∧ ∀ raw, a.raw = some raw ↔
      rules.patience.onset = .asks ∧ g.outcome messages state i = .text raw := by
  obtain ⟨left, s, log, next, hreaches, hattempt⟩ := exists_reaches_of_comesOut (.ended h)
  refine ⟨number_of_attempt hattempt, fun raw => ?_⟩
  rw [raw_of_attempt hattempt]
  refine and_congr_right fun hasks => ?_
  rw [hreaches.state_eq hasks]
  rfl

/-- A run that is stopped is stopped by the reply to the attempt after those that came to an end. -/
theorem ends_of_stopped {run : Run σ}
    (hrun : run = g.attemptsFrom rules messages validator retries 1 state)
    (hstops : out.ending? = some run.ending) :
    (g.outcome messages state run.attempts.length).Ends rules validator run.ending := by
  have hout : run.ComesOut run.attempts.length out := .stopped hstops
  rw [hrun] at hout
  obtain ⟨left, s, log, next, hreaches, hattempt⟩ := exists_reaches_of_comesOut hout
  obtain ⟨hasks, hends⟩ := ends_of_attempt hattempt hstops
  rwa [hreaches.state_eq hasks, ← hrun] at hends

end Generator

end ShapedJson
