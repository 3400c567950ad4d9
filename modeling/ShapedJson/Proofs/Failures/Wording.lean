import ShapedJson.Generation.Attempt

/-!
# How failures are worded

The class and the message of what a caller is told, spelled out: for a description that is refused,
and for an attempt that failed.
-/

namespace ShapedJson

namespace DescriptionError

/-- The class that a refused description is reported under. -/
def className (e : DescriptionError) : Text :=
  match e.defect with
  | .tooDeep => text "ShapeTooDeep"
  | .unsupportedKind _ => text "UnsupportedShapeKind"
  | .missingItems => text "MissingItemsDescriptor"

/-- What is said about the node at fault. -/
def complaint (limit : Int) (e : DescriptionError) : Text :=
  match e.defect with
  | .tooDeep => text "Shape nesting exceeds the maximum depth of " ++ Text.ofInt limit
  | .unsupportedKind kind =>
    text "Unsupported shape kind " ++ kind.inline ++
      text "; expected one of string, number, boolean, object, array"
  | .missingItems => text "Array shape is missing its 'items' descriptor"

/-- The message about a refused description: the complaint, and the path to the node in
parentheses. -/
def wording (limit : Int) (e : DescriptionError) : Text :=
  e.complaint limit ++ text " (at $" ++ e.path.flatMap (fun key => text "." ++ key) ++ text ")"

theorem name_toFailure (limit : Int) (e : DescriptionError) :
    (e.toFailure limit).name = e.className := by
  obtain ⟨path, defect⟩ := e
  cases defect <;> rfl

theorem message_toFailure (limit : Int) (e : DescriptionError) :
    (e.toFailure limit).message = e.wording limit := by
  have hlocated : ∀ t : Text, Failure.located t (Text.ofPath e.path) =
      t ++ text " (at $" ++ e.path.flatMap (fun key => text "." ++ key) ++ text ")" := by
    intro t
    simp only [Failure.located, Text.ofPath, List.append_assoc]
    rfl
  rw [wording, ← hlocated]
  obtain ⟨path, defect⟩ := e
  cases defect <;> rfl

end DescriptionError

namespace AttemptError

/-- The class that a failed attempt is reported under. -/
def className : AttemptError → Text
  | .transport _ => text "GeneratorTransportFailure"
  | .undecodable _ _ => text "DecodeFailure"
  | .mismatch _ => text "ShapeMismatch"

/-- The message about a failed attempt.  A long answer is quoted up to its first hundred code
points, and several violations are counted first. -/
def wording : AttemptError → Text
  | .transport reason => text "Generator call failed: " ++ reason
  | .undecodable raw reason =>
    let quote : Text := if 100 < raw.length then raw.take 100 ++ text "..." else raw
    text "Invalid JSON (" ++ reason ++ text "): " ++ quote.quoted
  | .mismatch violations =>
    match violations.map Violation.message with
    | [line] => line
    | lines =>
      Text.ofNat lines.length ++ text " validation errors: " ++ Text.join (text "; ") lines

theorem name_toFailure (e : AttemptError) : e.toFailure.name = e.className := by
  cases e <;> rfl

theorem message_toFailure (e : AttemptError) : e.toFailure.message = e.wording := by
  cases e with
  | transport reason => rfl
  | undecodable raw reason => rfl
  | mismatch violations =>
      rw [toFailure, wording]
      cases violations.map Violation.message with
      | nil => rfl
      | cons line lines => cases lines <;> rfl

end AttemptError

end ShapedJson
