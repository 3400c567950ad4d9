/-!
# Results that gather errors

A result is a value or a list of errors.  Two results are put together so that
the errors of both are kept, in order.
-/

namespace ShapedJson

/-- A value, or every error that stands in its way. -/
abbrev Gathered (ε α : Type) := Except (List ε) α

namespace Gathered

variable {ε α β : Type}

/-- Apply a function to an argument, or put the errors of both together. -/
def apply : Gathered ε (α → β) → Gathered ε α → Gathered ε β
  | .ok f, .ok a => .ok (f a)
  | .ok _, .error e => .error e
  | .error e, .ok _ => .error e
  | .error e, .error e' => .error (e ++ e')

/-- Apply to an argument the function that waits for it. -/
def supply (a : Gathered ε α) (f : Gathered ε (α → β)) : Gathered ε β := apply f a

/-- A result that is there only when there are no errors besides. -/
def barring (errors : List ε) (r : Gathered ε α) : Gathered ε α :=
  match r, errors with
  | .ok a, [] => .ok a
  | .ok _, e :: es => .error (e :: es)
  | .error e, es => .error (e ++ es)

theorem apply_eq_ok_iff {f : Gathered ε (α → β)} {a : Gathered ε α} {b : β} :
    apply f a = .ok b ↔ ∃ g x, f = .ok g ∧ a = .ok x ∧ g x = b := by
  cases f <;> cases a <;> simp [apply]

/-- The errors of a result, none when there is a value. -/
def errors : Gathered ε α → List ε
  | .ok _ => []
  | .error e => e

/-- Nothing is lost and nothing is added when results are put together. -/
theorem errors_apply (f : Gathered ε (α → β)) (a : Gathered ε α) :
    errors (apply f a) = errors f ++ errors a := by
  cases f <;> cases a <;> simp [apply, errors]

end Gathered

end ShapedJson
