import ShapedJson.Json.Inline
import ShapedJson.Shape.Description
import ShapedJson.Shape.Violation

/-!
# Failures

The failures of the service, each with the name under which it is reported and
its message.  Defective requests are reported at once; failures of an attempt
feed the retries; exhaustion carries the last of them.
-/

namespace ShapedJson

/-- A failure of the service. -/
inductive Failure where
  /-- A failure without further distinction. -/
  | general (message : Text)
  /-- A request body that is no mapping with a text and a description. -/
  | envelopeInvalid (errors : List Text)
  /-- An unusable description of a shape, without further distinction. -/
  | uncompilable (message path : Text)
  /-- A kind that is none of the five. -/
  | unsupportedKind (kind : Json) (path : Text)
  /-- An array without a description of its items. -/
  | missingItems (path : Text)
  /-- A node of a description beyond the limit. -/
  | shapeTooDeep (limit : Int) (path : Text)
  /-- A failed attempt, without further distinction. -/
  | attemptFailed (message : Text)
  /-- An answer that is no JSON text. -/
  | undecodable (raw reason : Text)
  /-- An answer that violates the shape. -/
  | mismatch (errors : List Text)
  /-- A call of the generator without an answer. -/
  | transport (reason : Text)
  /-- No attempt left. -/
  | exhausted (last : Failure) (attempts : Nat)

namespace Failure

/-- The name under which a failure is reported. -/
def name : Failure → Text
  | .general _ => text "StructifyError"
  | .envelopeInvalid _ => text "EnvelopeInvalid"
  | .uncompilable _ _ => text "ShapeCompilationError"
  | .unsupportedKind _ _ => text "UnsupportedShapeKind"
  | .missingItems _ => text "MissingItemsDescriptor"
  | .shapeTooDeep _ _ => text "ShapeTooDeep"
  | .attemptFailed _ => text "AttemptFailure"
  | .undecodable _ _ => text "DecodeFailure"
  | .mismatch _ => text "ShapeMismatch"
  | .transport _ => text "GeneratorTransportFailure"
  | .exhausted _ _ => text "GenerationExhausted"

/-- A message with the path of the node that it is about. -/
def located (message path : Text) : Text := message ++ text " (at " ++ path ++ text ")"

/-- The start of a text, with dots when it is cut. -/
def preview (t : Text) : Text := if 100 < t.length then t.take 100 ++ text "..." else t

/-- The message of a failure. -/
def message : Failure → Text
  | .general message => message
  | .envelopeInvalid errors => text "Invalid request body: " ++ Text.join (text "; ") errors
  | .uncompilable message path => located message path
  | .unsupportedKind kind path =>
    located (text "Unsupported shape kind " ++ kind.inline ++
      text "; expected one of string, number, boolean, object, array") path
  | .missingItems path => located (text "Array shape is missing its 'items' descriptor") path
  | .shapeTooDeep limit path =>
    located (text "Shape nesting exceeds the maximum depth of " ++ Text.ofInt limit) path
  | .attemptFailed message => message
  | .undecodable raw reason =>
    text "Invalid JSON (" ++ reason ++ text "): " ++ (preview raw).quoted
  | .mismatch [error] => error
  | .mismatch errors =>
    Text.ofNat errors.length ++ text " validation errors: " ++ Text.join (text "; ") errors
  | .transport reason => text "Generator call failed: " ++ reason
  | .exhausted last attempts =>
    text "All " ++ Text.ofNat attempts ++ text " generation attempts failed. Last error: " ++
      message last

end Failure

/-- The failure that an unusable description is reported as, under a limit. -/
def DescriptionError.toFailure (limit : Int) (e : DescriptionError) : Failure :=
  match e.defect with
  | .tooDeep => .shapeTooDeep limit (Text.ofPath e.path)
  | .unsupportedKind kind => .unsupportedKind kind (Text.ofPath e.path)
  | .missingItems => .missingItems (Text.ofPath e.path)

/-- The shape that a value describes, when none of its nodes is more than the
given number of steps away. -/
def Shape.ofDescription (limit : Int) (raw : Json) : Except DescriptionError Shape :=
  Shape.describe limit raw

end ShapedJson
