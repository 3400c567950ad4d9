import ShapedJson.Answer.Decode
import ShapedJson.Generation.Generator
import ShapedJson.Generation.Patience
import ShapedJson.Shape.Validator

/-!
# Attempts

One attempt asks the generator once, decodes the text and checks the value.
It ends with a value or with one of three errors, unless the wait is cancelled
or never ends.
-/

namespace ShapedJson

/-- Why an attempt gives no value. -/
inductive AttemptError where
  /-- No text came. -/
  | transport (reason : Text)
  /-- The text is no JSON. -/
  | undecodable (raw reason : Text)
  /-- The value violates the shape. -/
  | mismatch (violations : List Violation)
  deriving DecidableEq, Repr

/-- The failure that the error of an attempt is reported as. -/
def AttemptError.toFailure : AttemptError → Failure
  | .transport reason => .transport reason
  | .undecodable raw reason => .undecodable raw reason
  | .mismatch violations => .mismatch (violations.map Violation.message)

/-- One attempt: its number, the text if one came, and how it ended.  The prompt, which is that of
the run and which nothing reads again, and the time that the attempt took are left out. -/
structure Attempt where
  number : Nat
  raw : Option Text
  result : Except AttemptError Json

/-- What comes of waiting for a text. -/
inductive Wait where
  | received (raw : Text)
  | failed (reason : Text)
  | cancelled (reason : Text)
  /-- The wait never ends. -/
  | endless
  deriving DecidableEq, Repr

namespace Wait

/-- What a reply means to one who waits. -/
def ofReply (patience : Patience) : Reply → Wait
  | .text t => .received t
  | .raised (.transport reason) => .failed reason
  | .raised (.timeout _) => .failed patience.expiry
  | .raised (.other name message) => .failed (Raised.summary (.other name message))
  | .silent => if patience.ends then .failed patience.expiry else .endless
  | .cancelled reason => .cancelled reason

end Wait

/-- Ask a generator once: what came, the records, and the state after it. -/
def Generator.ask {σ : Type} (g : Generator σ) (patience : Patience) (messages : List Message)
    (state : σ) : Wait × List LogRecord × σ :=
  match patience.onset with
  | .expired => (.failed patience.expiry, [], state)
  | .immeasurable =>
    (.failed (text "OverflowError: int too large to convert to float"), [], state)
  | .asks =>
    let s := g.submit messages state
    (.ofReply patience s.reply, s.log, s.state)

/-- Decode a text and check the value. -/
def Validator.judge (validator : Validator) (stripFences : Bool) (raw : Text) :
    Except AttemptError Json :=
  match Answer.decode stripFences raw with
  | .error reason => .error (.undecodable raw reason)
  | .ok v => (validator.check v).mapError .mismatch

/-- What attempts need beside the generator and the validator. -/
structure AttemptRules where
  patience : Patience
  stripFences : Bool
  deriving Repr

/-- How an attempt comes out. -/
inductive Attempted where
  | ended (attempt : Attempt)
  | cancelled (reason : Text)
  /-- The wait never ends. -/
  | endless

namespace Attempt

/-- A record of the loop. -/
def record (level : LogLevel) (message : Text) : LogRecord := ⟨level, .generation, message⟩

/-- The record of a text that came, cut to its start. -/
def received (number : Nat) (raw : Text) : LogRecord :=
  record .debug
    (text "Attempt " ++ Text.ofNat number ++ text " raw output: " ++ raw.take 500)

end Attempt

/-- Make one attempt: how it comes out, the records, and the state after it. -/
def Generator.attempt {σ : Type} (g : Generator σ) (rules : AttemptRules)
    (messages : List Message) (validator : Validator) (number : Nat) (state : σ) :
    Attempted × List LogRecord × σ :=
  let (wait, log, state) := g.ask rules.patience messages state
  match wait with
  | .received raw =>
    (.ended ⟨number, some raw, validator.judge rules.stripFences raw⟩,
      log ++ [Attempt.received number raw], state)
  | .failed reason => (.ended ⟨number, none, .error (.transport reason)⟩, log, state)
  | .cancelled reason => (.cancelled reason, log, state)
  | .endless => (.endless, log, state)

end ShapedJson
