import ShapedJson.Service.Envelope
import ShapedJson.Service.Response
import ShapedJson.Settings.Basic
import ShapedJson.Shape.Compile

/-!
# Extraction

The answer to a request for extraction.  The envelope is opened and the shape is
compiled before the generator is asked; then attempts are made until one gives a
value or no retry is left.
-/

namespace ShapedJson

/-- What comes of a request: a response or an escape, the records, and the state
of the generator after it. -/
structure Answered (σ : Type) where
  outcome : Except Escape Response
  log : List LogRecord
  state : σ

/-- The settings of a service, the generator that it asks, and the stack that it runs on. -/
structure Service (σ : Type) where
  settings : Settings
  generator : Generator σ
  stack : Stack

namespace Service

variable {σ : Type}

/-- The record of a request that is refused. -/
def rejected (failure : Failure) : LogRecord :=
  ⟨.info, .service, text "Rejected request: " ++ failure.message⟩

/-- The answer to a request that is refused, after some records. -/
def reject (failure : Failure) (log : List LogRecord) (state : σ) : Answered σ :=
  ⟨Response.ofFailure 400 failure none, log ++ [rejected failure], state⟩

/-- How the attempts of a request are made. -/
def attemptRules (s : Service σ) : AttemptRules :=
  ⟨s.settings.attemptTimeout, s.settings.stripCodeFences⟩

/-- What the end of a run is answered with. -/
def conclude (run : Run σ) : Except Escape Response :=
  match run.ending with
  | .value v => Response.ofJson 200 v
  | .exhausted last =>
    Response.ofFailure 500 (run.exhaustion last) (some run.attempts.length)
  | .cancelled reason => .error (.cancelled reason)
  | .endless => .error .endless

/-- The answer to an envelope with a validator.  The prompt is written before anything else. -/
def generate (s : Service σ) (e : Envelope) (validator : Validator) (log : List LogRecord)
    (state : σ) : Answered σ :=
  if s.stack.writing < e.description.depth then ⟨.error (.overflow .writing), log, state⟩
  else
    match s.generator.run? s.attemptRules (Prompt.render e.data e.description) validator
        s.settings.maxRetries state with
    | none => ⟨.error (.negativeRetries s.settings.maxRetries), log, state⟩
    | some run => ⟨conclude run, log ++ run.log, run.state⟩

/-- The answer to an envelope. -/
def extractFrom (s : Service σ) (e : Envelope) (state : σ) : Answered σ :=
  match Validator.compile s.stack s.settings.maxShapeDepth e.description with
  | (.error (.refused failure), log) => reject failure log state
  | (.error (.overflow o), log) => ⟨.error (.overflow o), log, state⟩
  | (.error (.unencodable fault), log) => ⟨.error (.unencodableShape fault), log, state⟩
  | (.ok validator, log) => s.generate e validator log state

/-- The answer to what the body of a request holds. -/
def extract (s : Service σ) (payload : Payload) (state : σ) : Answered σ :=
  let envelope :=
    match payload with
    | .value v => Envelope.ofJson v
    | .foreign => .error [.notMapping]
  match envelope with
  | .error faults =>
    reject (.envelopeInvalid (faults.map EnvelopeFault.message)) [] state
  | .ok e => s.extractFrom e state

end Service

end ShapedJson
