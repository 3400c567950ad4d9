import ShapedJson.Failure
import ShapedJson.Generation.Loop
import ShapedJson.Json.Writer
import ShapedJson.Service.Request
import ShapedJson.Shape.Stack
import ShapedJson.Shape.Validator
import ShapedJson.Text.Encodable

/-!
# Responses

A response has a status, a content type and a body of JSON text, which must hold
finite numbers and encodable text only.  What cannot be answered escapes.
-/

namespace ShapedJson

/-- An answer to a request.  A response without a body has no content type. -/
structure Response where
  status : Nat
  contentType : Option Text
  body : Text
  deriving DecidableEq, Repr

/-- What keeps a request from being answered. -/
inductive Escape where
  /-- The stack has no room for the description or for its shape. -/
  | overflow (o : Overflow)
  /-- A field name of the shape cannot be encoded. -/
  | unencodableShape (fault : EncodingFault)
  /-- A number of retries below zero. -/
  | negativeRetries (retries : Int)
  | cancelled (reason : Text)
  /-- A number of the body that is not finite. -/
  | notFinite
  /-- A surrogate in the body. -/
  | unencodableBody (fault : EncodingFault)
  /-- The wait for the generator never ends. -/
  | endless
  deriving DecidableEq, Repr

namespace Escape

/-- The class under which an escape is reported. -/
def name : Escape → Text
  | .overflow _ => text "RecursionError"
  | .unencodableShape _ => text "SchemaError"
  | .negativeRetries _ | .notFinite => text "ValueError"
  | .cancelled _ => text "CancelledError"
  | .unencodableBody _ => text "UnicodeEncodeError"
  | .endless => []

/-- An escape in words. -/
def message : Escape → Text
  | .overflow o => o.message
  | .unencodableShape fault => Validator.refusal fault
  | .negativeRetries retries => ShapedJson.negativeRetries retries
  | .cancelled reason => reason
  | .notFinite => text "Out of range float values are not JSON compliant"
  | .unencodableBody fault => fault.message
  | .endless => []

end Escape

namespace Response

/-- The content type of JSON. -/
def jsonType : Text := text "application/json"

/-- A response of plain text. -/
def plain (status : Nat) (body : Text) : Response :=
  ⟨status, some (text "text/plain; charset=utf-8"), body⟩

/-- The text of a value in a body: compact, nothing escaped that need not be. -/
def bodyOf (v : Json) : Text := v.write .compactUnicode 0

/-- The response that holds a value. -/
def ofJson (status : Nat) (v : Json) : Except Escape Response :=
  if v.isFinite then
    match (bodyOf v).encodingFault? with
    | none => .ok ⟨status, some jsonType, bodyOf v⟩
    | some fault => .error (.unencodableBody fault)
  else .error .notFinite

/-- The value that reports a failure. -/
def report (failure : Failure) (attempts : Option Nat) : Json :=
  .object
    [(text "error", .string failure.name), (text "detail", .string failure.message),
      (text "attempts", (attempts.map fun n => Json.int n).getD .null)]

/-- The response that reports a failure. -/
def ofFailure (status : Nat) (failure : Failure) (attempts : Option Nat) :
    Except Escape Response :=
  ofJson status (report failure attempts)

/-- The value that holds a detail. -/
def detailed (detail : Json) : Json := .object [(text "detail", detail)]

/-- The entry about an absent body. -/
def absentBody : Json :=
  .object
    [(text "type", .string (text "missing")), (text "loc", .array [.string (text "body")]),
      (text "msg", .string (text "Field required")), (text "input", .null)]

/-- The entry about a body with a problem at a position. -/
def malformedBody (position : Nat) (problem : Problem) : Json :=
  .object
    [(text "type", .string (text "json_invalid")),
      (text "loc", .array [.string (text "body"), .int position]),
      (text "msg", .string (text "JSON decode error")), (text "input", .object []),
      (text "ctx", .object [(text "error", .string problem.message)])]

/-- The response to a body that cannot be read. -/
def ofPayloadFault : PayloadFault → Except Escape Response
  | .absent => ofJson 422 (detailed (.array [absentBody]))
  | .malformed position problem =>
    ofJson 422 (detailed (.array [malformedBody position problem]))
  | .unreadable =>
    ofJson 400 (detailed (.string (text "There was an error parsing the body")))

/-- The response without its body. -/
def withoutBody (r : Response) : Response := { r with body := [] }

/-- The response to a path that leads nowhere. -/
def notFound : Except Escape Response := ofJson 404 (detailed (.string (text "Not Found")))

/-- The response to a method that a path does not have. -/
def wrongMethod : Except Escape Response :=
  ofJson 405 (detailed (.string (text "Method Not Allowed")))

/-- The response that sends the caller to the path with or without a slash at its
end. -/
def redirect : Response := ⟨307, none, []⟩

end Response

end ShapedJson
