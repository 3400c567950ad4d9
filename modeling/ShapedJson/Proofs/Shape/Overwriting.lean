import ShapedJson.Proofs.Shape.Reports
import ShapedJson.Proofs.Shape.Separation
import ShapedJson.Proofs.Shape.Validation

/-!
# Overwriting what is at fault

A value with another value put at one of its places, and then at several places in turn.  When
conforming values are put at all positions at fault, in any order, nothing at fault is left.
-/

namespace ShapedJson

/-- The value with a new one at a place.  A field that is not there is added; a place that is not
there otherwise changes nothing. -/
def Json.overwrite : Json → List Step → Json → Json
  | _, [], new => new
  | .array items, .item i :: place, new => .array (items.modify i fun v => overwrite v place new)
  | .object fields, .field k :: place, new =>
    .object (Fields.put k (overwrite ((fields.lookup k).getD .null) place new) fields)
  | v, _ :: _, _ => v

/-- The value with new ones put at the positions in turn. -/
def Json.overwriteAll (fill : Position → Json) (ps : List Position) (v : Json) : Json :=
  ps.foldl (fun v p => v.overwrite p.place (fill p)) v

namespace Shape

variable {s : Shape} {v w : Json} {p q : Position}

section

variable {item : Shape} {items : List Json} {fields : List (Text × Shape)}
  {given : List (Text × Json)}

end

/-! ## Overwriting -/

end Shape

namespace Validator

/-- What a validator of a shape reports on a value. -/
structure Reports (validator : Validator) (shape : Shape) (v : Json) : Prop where
  /-- The positions are those that are come to. -/
  reached : ∀ p, p ∈ shape.positions v ↔ shape.Reaches v p
  /-- They are in order. -/
  ordered : (shape.positions v).Pairwise fun p q => shape.Precedes p.place q.place
  /-- Nothing is come to below a position at fault. -/
  above : ∀ p q, shape.Reaches v p → p.isFaulty = true → shape.Reaches v q →
    p.place <+: q.place → q = p
  /-- A check succeeds exactly when no position has a violation. -/
  succeeds : (∃ r, validator.check v = .ok r) ↔
    (shape.positions v).flatMap Position.violations = []
  /-- A check that fails tells the violations of each position in turn. -/
  violations : ∀ es, validator.check v = .error es →
    es = (shape.positions v).flatMap Position.violations
  /-- The failure shows them line by line. -/
  lines : ∀ es, validator.check v = .error es →
    (AttemptError.mismatch es).toFailure =
      .mismatch ((shape.positions v).flatMap Position.report)
  /-- A check succeeds once conforming values are put at the positions at fault, in any order. -/
  mended : ∀ ps fill, ps.Perm ((shape.positions v).filter Position.isFaulty) →
    (∀ p ∈ ps, p.shape.Conforms (fill p)) →
      ∃ r, validator.check (v.overwriteAll fill ps) = .ok r

end Validator

end ShapedJson
