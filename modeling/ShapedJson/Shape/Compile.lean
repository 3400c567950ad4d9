import ShapedJson.Failure
import ShapedJson.Log
import ShapedJson.Shape.Stack
import ShapedJson.Shape.Validator

/-!
# From a description to a validator

A description is read first and recorded when it has a shape; then the names of
the shape are tried.  Each step may find no room on the stack.
-/

namespace ShapedJson

/-- Why a description gives no validator. -/
inductive CompileError where
  /-- The description is unusable. -/
  | refused (failure : Failure)
  /-- A name of the shape cannot be encoded. -/
  | unencodable (fault : EncodingFault)
  /-- The stack has no room for the description or for its shape. -/
  | overflow (o : Overflow)

namespace CompileError

/-- The class under which the error is reported. -/
def name : CompileError → Text
  | .refused failure => failure.name
  | .unencodable _ => text "SchemaError"
  | .overflow _ => text "RecursionError"

/-- The message of the error. -/
def message : CompileError → Text
  | .refused failure => failure.message
  | .unencodable fault => Validator.refusal fault
  | .overflow o => o.message

end CompileError

/-- What comes of a defect on a stack: the failure that it is reported as, if there is room to reach
the node and to show its kind. -/
def DescriptionError.toCompileError (stack : Stack) (limit : Int) (e : DescriptionError) :
    CompileError :=
  match e.defect with
  | .tooDeep => if limit < stack.reading then .refused (e.toFailure limit) else .overflow .reading
  | .unsupportedKind kind =>
    if stack.refusing < e.path.length + kind.depth then .overflow .refusing
    else .refused (e.toFailure limit)
  | .missingItems => .refused (e.toFailure limit)

/-- The record of a shape that was described. -/
def Shape.described (shape : Shape) : LogRecord :=
  ⟨.debug, .shapes, text "Compiled shape: " ++ shape.inline⟩

/-- The validator of a description under a limit of depth, and the records.  No node is read for
which the stack has no room, and a shape is shown before its types are built. -/
def Validator.compile (stack : Stack) (limit : Int) (raw : Json) :
    Except CompileError Validator × List LogRecord :=
  match Shape.ofDescription (min limit stack.reading) raw with
  | .error e => (.error (e.toCompileError stack limit), [])
  | .ok shape =>
    if stack.showing < shape.showingCalls then (.error (.overflow .showing), [])
    else if stack.builds shape then
      ((Validator.ofShape shape).mapError .unencodable, [shape.described])
    else (.error (.overflow .building), [shape.described])

end ShapedJson
