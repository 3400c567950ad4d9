import ShapedJson.Gathered
import ShapedJson.Json.Basic

/-!
# Envelopes

The body of a request is a mapping with a text and the description of a shape.
The description is kept as it is; further fields are ignored.
-/

namespace ShapedJson

/-- What a request asks: a text, and the fields that describe a shape. -/
structure Envelope where
  data : Text
  format : List (Text × Json)

/-- What is wrong with the body of a request. -/
inductive EnvelopeFault where
  | notMapping
  | noData
  | dataNotText
  | noFormat
  | formatNotMapping
  deriving DecidableEq, Repr

/-- A fault in words, after the field that it is about. -/
def EnvelopeFault.message : EnvelopeFault → Text
  | .notMapping =>
    text "body: Input should be a valid dictionary or instance of JsonExtractionRequest"
  | .noData => text "data: Field required"
  | .dataNotText => text "data: Input should be a valid string"
  | .noFormat => text "format: Field required"
  | .formatNotMapping => text "format: Input should be a valid dictionary"

namespace Envelope

/-- The text of a request. -/
def readData : Option Json → Gathered EnvelopeFault Text
  | some (.string s) => .ok s
  | some _ => .error [.dataNotText]
  | none => .error [.noData]

/-- The description of a request. -/
def readFormat : Option Json → Gathered EnvelopeFault (List (Text × Json))
  | some (.object fields) => .ok fields
  | some _ => .error [.formatNotMapping]
  | none => .error [.noFormat]

/-- The envelope that a body is, or everything that is wrong with it. -/
def ofJson : Json → Gathered EnvelopeFault Envelope
  | .object fields =>
    Gathered.apply ((readData (fields.lookup (text "data"))).map Envelope.mk)
      (readFormat (fields.lookup (text "format")))
  | _ => .error [.notMapping]

/-- The description as a value. -/
def description (e : Envelope) : Json := .object e.format

end Envelope

end ShapedJson
