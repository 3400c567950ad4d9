import ShapedJson.Generation.Attempt

/-!
# The retry loop

Attempts follow each other until one gives a value or no retry is left.  The
questions are all the same and nothing is carried from one attempt to the next
but the state of the generator.
-/

namespace ShapedJson

/-- How a run ends. -/
inductive Ending where
  | value (v : Json)
  | exhausted (last : AttemptError)
  | cancelled (reason : Text)
  /-- The run waits for ever. -/
  | endless

/-- A run: how it ends, the attempts that came to an end, the records, and the
state of the generator after it. -/
structure Run (σ : Type) where
  ending : Ending
  attempts : List Attempt
  log : List LogRecord
  state : σ

namespace Run

/-- The failure that exhaustion is reported as. -/
def exhaustion {σ : Type} (r : Run σ) (last : AttemptError) : Failure :=
  .exhausted last.toFailure r.attempts.length

end Run

namespace Attempt

/-- The record of a value.  A question mark stands for the time that it took. -/
def succeeded (number : Nat) : LogRecord :=
  record .info (text "Generation succeeded on attempt " ++ Text.ofNat number ++ text " (?ms)")

/-- The record of an attempt that is followed by another. -/
def retried (number : Nat) (error : AttemptError) (retriesLeft : Nat) : LogRecord :=
  record .warning
    (text "Attempt " ++ Text.ofNat number ++ text " failed (" ++ error.toFailure.name ++
      text ": " ++ error.toFailure.message ++ text "); retrying, " ++ Text.ofNat retriesLeft ++
      text " retries left")

/-- The record of the last attempt of a run without a value. -/
def gaveUp (number : Nat) (error : AttemptError) : LogRecord :=
  record .error
    (text "Generation exhausted after " ++ Text.ofNat number ++ text " attempts: " ++
      error.toFailure.message)

end Attempt

namespace Generator

variable {σ : Type}

/-- The attempts from a number on, with so many retries left. -/
def attemptsFrom (g : Generator σ) (rules : AttemptRules) (messages : List Message)
    (validator : Validator) (retriesLeft number : Nat) (state : σ) : Run σ :=
  match g.attempt rules messages validator number state with
  | (.cancelled reason, log, state) => ⟨.cancelled reason, [], log, state⟩
  | (.endless, log, state) => ⟨.endless, [], log, state⟩
  | (.ended attempt, log, state) =>
    match attempt.result, retriesLeft with
    | .ok v, _ => ⟨.value v, [attempt], log ++ [Attempt.succeeded number], state⟩
    | .error e, 0 => ⟨.exhausted e, [attempt], log ++ [Attempt.gaveUp number e], state⟩
    | .error e, retries + 1 =>
      let rest := attemptsFrom g rules messages validator retries (number + 1) state
      ⟨rest.ending, attempt :: rest.attempts,
        log ++ Attempt.retried number e (retries + 1) :: rest.log, rest.state⟩

/-- Ask for a prompt until a value comes, with a number of retries that must not
be negative. -/
def run? (g : Generator σ) (rules : AttemptRules) (prompt : Text) (validator : Validator)
    (retries : Int) (state : σ) : Option (Run σ) :=
  match retries with
  | .ofNat n => some (g.attemptsFrom rules (Prompt.conversation prompt) validator n 1 state)
  | .negSucc _ => none

end Generator

/-- The complaint about a negative number of retries. -/
def negativeRetries (retries : Int) : Text :=
  text "max_retries must be non-negative, got " ++ Text.ofInt retries

end ShapedJson
