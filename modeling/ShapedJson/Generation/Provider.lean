import ShapedJson.Generation.Generator

/-!
# Providers

A provider completes conversations.  Its reply holds any number of choices, each
with or without content.  The adapter turns a provider into a generator: the
first choice counts, missing content is the empty text, and every error of the
provider becomes a transport failure after a record of it.
-/

namespace ShapedJson

/-- A request for a completion.  An absent part is not sent. -/
structure CompletionRequest where
  model : Text
  messages : List Message
  apiKey : Option Text
  temperature : Option Number
  jsonMode : Bool
  deriving Repr

namespace CompletionRequest

/-- The request as a JSON object. -/
def toJson (r : CompletionRequest) : Json :=
  .object
    ([(text "model", .string r.model), (text "messages", .array (r.messages.map Message.toJson))] ++
      (match r.apiKey with
        | some key => [(text "api_key", .string key)]
        | none => []) ++
      (match r.temperature with
        | some n => [(text "temperature", .number n)]
        | none => []) ++
      (if r.jsonMode then
        [(text "response_format", .object [(text "type", .string (text "json_object"))])]
      else []))

end CompletionRequest

/-- What comes of asking a provider once. -/
inductive ProviderReply where
  /-- The contents of the choices. -/
  | choices (contents : List (Option Text))
  | raised (e : Raised)
  | silent
  | cancelled (reason : Text)
  deriving DecidableEq, Repr

/-- Something that completes conversations. -/
structure Provider (σ : Type) where
  complete : CompletionRequest → σ → ProviderReply × σ

/-- The provider that gives the replies of a sequence in turn. -/
def Provider.ofSequence (replies : Nat → ProviderReply) : Provider (Tape CompletionRequest) :=
  ⟨fun request tape => (replies tape.position, tape.advance request)⟩

/-- How to ask a provider. -/
structure Adapter where
  model : Text
  apiKey : Option Text
  temperature : Option Number
  jsonMode : Bool
  deriving Repr

namespace Adapter

/-- The request for a conversation.  An empty key is not sent. -/
def request (a : Adapter) (messages : List Message) : CompletionRequest :=
  ⟨a.model, messages, a.apiKey.filter fun key => !key.isEmpty, a.temperature, a.jsonMode⟩

/-- The record of an error of the provider. -/
def failed (a : Adapter) (e : Raised) : LogRecord :=
  ⟨.warning, .provider,
    text "LiteLLM call to " ++ a.model ++ text " failed: " ++ e.message⟩

/-- What the reply of a provider means, with the records of it. -/
def reply (a : Adapter) : ProviderReply → Reply × List LogRecord
  | .choices [] => (.raised (.other (text "IndexError") (text "list index out of range")), [])
  | .choices (content :: _) => (.text (content.getD []), [])
  | .raised e => (.raised (.transport e.summary), [a.failed e])
  | .silent => (.silent, [])
  | .cancelled reason => (.cancelled reason, [])

/-- The generator that asks a provider. -/
def generator {σ : Type} (a : Adapter) (p : Provider σ) : Generator σ :=
  ⟨fun messages state =>
    let (r, state) := p.complete (a.request messages) state
    let (reply, log) := a.reply r
    ⟨reply, log, state⟩⟩

end Adapter

end ShapedJson
