import ShapedJson.Generation.Attempt
import ShapedJson.Proofs.Shape.Conformance
import ShapedJson.Proofs.Shape.Positions

/-!
# What a check reports

A check reports what is wrong at each position by itself, in the order of the positions, and
nothing else.  It succeeds when there is nothing to report.
-/

namespace ShapedJson

namespace Position

/-- What is wrong at the position itself.  A bad number is told twice. -/
def mismatches (p : Position) : List Mismatch :=
  if p.isFaulty then
    match p.shape, p.found with
    | _, none => [.missingField]
    | .leaf .string, some _ => [.notString]
    | .leaf .number, some (.number _) => [.notInteger, .notFinite]
    | .leaf .number, some _ => [.notInteger, .notNumber]
    | .leaf .boolean, some _ => [.notBoolean]
    | .array _, some _ => [.notList]
    | .object _, some _ => [.notObject]
  else []

/-- The violations of the position itself. -/
def violations (p : Position) : List Violation := p.mismatches.map (Violation.mk p.place)

/-- One line about the position: the place, more steps for a branch, and what was expected. -/
def line (p : Position) (branch : List Text) (expectation : Text) : Text :=
  Text.ofPath (p.place.map Step.toText ++ branch) ++ text ": " ++ expectation

/-- What is told about the position. -/
def report (p : Position) : List Text :=
  if p.isFaulty then
    match p.shape, p.found with
    | _, none => [p.line [] (text "Field required")]
    | .leaf .string, some _ => [p.line [] (text "Input should be a valid string")]
    | .leaf .number, some (.number _) =>
      [p.line [text "int"] (text "Input should be a valid integer"),
        p.line [text "float"] (text "Input should be a finite number")]
    | .leaf .number, some _ =>
      [p.line [text "int"] (text "Input should be a valid integer"),
        p.line [text "float"] (text "Input should be a valid number")]
    | .leaf .boolean, some _ => [p.line [] (text "Input should be a valid boolean")]
    | .array _, some _ => [p.line [] (text "Input should be a valid list")]
    | .object _, some _ =>
      [p.line [] (text "Input should be a valid dictionary or instance of " ++
        Violation.objectName p.place)]
  else []

end Position

namespace Gathered

variable {ε α β : Type} {es es' : List ε}

end Gathered

namespace Shape

open Gathered

/-- All violations, position by position. -/
def violations (s : Shape) (v : Json) : List Violation := (s.positions v).flatMap Position.violations

end Shape

end ShapedJson
