import ShapedJson.Shape.Schema
import ShapedJson.Text.Encodable

/-!
# Validators

A validator is a shape that is ready for checking.  The names of its fields have
to be encodable; of a shape with names that are not, the first innermost object
that has one is refused.
-/

namespace ShapedJson

/-- A shape that is ready for checking. -/
structure Validator where
  shape : Shape
  deriving Repr

namespace Shape

/-- The first name without an encoding. -/
def unencodableKey? (fields : List (Text × Shape)) : Option EncodingFault :=
  fields.findSome? fun f => Text.encodingFault? f.1

mutual

/-- The first name without an encoding, inner objects before outer ones. -/
def unencodableName? : Shape → Option EncodingFault
  | .leaf _ => none
  | .array item => unencodableName? item
  | .object fields => (unencodableInside? fields).or (unencodableKey? fields)

/-- The first name without an encoding inside the shapes of the fields. -/
def unencodableInside? : List (Text × Shape) → Option EncodingFault
  | [] => none
  | (_, s) :: rest => (unencodableName? s).or (unencodableInside? rest)

end

end Shape

namespace Validator

/-- The validator of a shape, or the name that stands in its way. -/
def ofShape (shape : Shape) : Except EncodingFault Validator :=
  match shape.unencodableName? with
  | some f => .error f
  | none => .ok ⟨shape⟩

/-- Why there is no validator, in words. -/
def refusal (f : EncodingFault) : Text :=
  text "Error building \"model\" validator:\n  SchemaError: Error building \"model-fields\" " ++
    text "validator:\n  TypeError: failed to extract enum ValidationAlias " ++
    text "('Str | AliasPath | AliasChoices')\n- variant Str (Str): TypeError: failed to " ++
    text "extract field ValidationAlias::Str.0, caused by UnicodeEncodeError: " ++ f.message ++
    refusedVariant "AliasPath" ++ refusedVariant "AliasChoices"
where
  refusedVariant (name : String) : Text :=
    text "\n- variant " ++ text name ++ text " (" ++ text name ++
      text "): TypeError: failed to extract field ValidationAlias::" ++ text name ++
      text ".0, caused by TypeError: 'str' object is not an instance of 'list'"

/-- The schema that values are checked against. -/
def schema (validator : Validator) : Schema := validator.shape.schema

/-- Check a value. -/
def check (validator : Validator) (v : Json) : Gathered Violation Json :=
  (validator.schema.validate v).map Instance.dump

/-- Whether a value passes the check. -/
def isValid (validator : Validator) (v : Json) : Bool :=
  match validator.check v with
  | .ok _ => true
  | .error _ => false

/-- The validator as messages show it. -/
def inline (validator : Validator) : Text :=
  text "Validator(" ++ validator.shape.inline ++ text ")"

end Validator

end ShapedJson
