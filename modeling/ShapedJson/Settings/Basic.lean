import ShapedJson.Generation.Patience
import ShapedJson.Generation.Provider

/-!
# Settings

What can be set about the service: the provider and how to ask it, the retries,
and the limit of shapes.
-/

namespace ShapedJson

/-- The settings of the service. -/
structure Settings where
  model : Text
  apiKey : Option Text
  temperature : Option Number
  jsonMode : Bool
  maxRetries : Int
  attemptTimeout : Patience
  stripCodeFences : Bool
  maxShapeDepth : Int
  logLevel : Text
  deriving DecidableEq, Repr

namespace Settings

/-- The settings where nothing is set. -/
def standard : Settings where
  model := text "openai/gpt-4o-mini"
  apiKey := none
  temperature := none
  jsonMode := false
  maxRetries := 5
  attemptTimeout := .seconds (.real (.ofInt 60))
  stripCodeFences := true
  maxShapeDepth := 32
  logLevel := text "INFO"

/-- The way to ask the provider. -/
def adapter (s : Settings) : Adapter := ⟨s.model, s.apiKey, s.temperature, s.jsonMode⟩

/-- The settings as a JSON object. -/
def toJson (s : Settings) : Json :=
  .object
    [(text "model", .string s.model),
      (text "openai_api_key", (s.apiKey.map Json.string).getD .null),
      (text "temperature", (s.temperature.map Json.number).getD .null),
      (text "json_mode", .bool s.jsonMode),
      (text "max_retries", .int s.maxRetries),
      (text "attempt_timeout",
        match s.attemptTimeout with
        | .unlimited => .null
        | .seconds n => .number n),
      (text "strip_code_fences", .bool s.stripCodeFences),
      (text "max_shape_depth", .int s.maxShapeDepth),
      (text "log_level", .string s.logLevel)]

end Settings

end ShapedJson
