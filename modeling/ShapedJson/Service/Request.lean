import ShapedJson.Json.Reader
import ShapedJson.Text.Blank

/-!
# Requests

A request has a method, a target, a content type and the octets of a body.  The
body is read as JSON when its content type says so; a body of another type is
no value, and an absent or unreadable one is a fault.
-/

namespace ShapedJson

/-- A request as it arrives. -/
structure Request where
  method : Text
  target : Text
  contentType : Option Text
  octets : List UInt8

/-- What the body of a request holds. -/
inductive Payload where
  | value (v : Json)
  /-- Octets of another content type. -/
  | foreign
  deriving Repr

/-- Why the body of a request cannot be read. -/
inductive PayloadFault where
  | absent
  /-- A problem after a number of code points. -/
  | malformed (position : Nat) (problem : Problem)
  /-- Octets without a text, or a document beyond the bounds. -/
  | unreadable
  deriving DecidableEq, Repr

namespace Request

/-- The method in capitals. -/
def verb (r : Request) : Text := r.method.map CodePoint.upper

/-- Whether a content type is that of JSON, or of a format built on it. -/
def isJsonType (contentType : Text) : Bool :=
  let essence := contentType.takeWhile fun (c : CodePoint) => c != ';'
  let essence := (Text.trim essence).map CodePoint.lower
  match Text.after? (text "application/") essence with
  | none => false
  | some kind =>
    !kind.contains '/' && (kind == text "json" || (text "+json").isSuffixOf kind)

/-- The bounds for bodies. -/
def rules : ReadRules := ⟨true, 4300, 900⟩

/-- The value of a document in octets. -/
def readDocument (octets : List UInt8) : Except PayloadFault Json :=
  match Text.ofDocument? octets with
  | none => .error .unreadable
  | some document =>
    (Json.read rules document).mapError fun fault =>
      match fault with
      | .stopped problem rest => .malformed (document.length - rest.length) problem
      | _ => .unreadable

/-- The body of a request. -/
def payload (r : Request) : Except PayloadFault Payload :=
  if r.octets.isEmpty then .error .absent
  else if r.contentType.any isJsonType then (readDocument r.octets).map .value
  else .ok .foreign

end Request

end ShapedJson
