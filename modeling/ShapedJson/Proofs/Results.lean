/-!
# Results that are built from others

When a result that is built from others is a value, and when it is an error.  Proofs take programs
apart with these and never open what puts results together.
-/

namespace ShapedJson.Results

variable {ε ε' α β : Type} {r : Except ε α}

theorem bind_eq_ok_iff {f : α → Except ε β} {b : β} :
    (r >>= f) = .ok b ↔ ∃ a, r = .ok a ∧ f a = .ok b := by
  cases r <;> simp [bind, Except.bind]

theorem bind_eq_error_iff {f : α → Except ε β} {e : ε} :
    (r >>= f) = .error e ↔ r = .error e ∨ ∃ a, r = .ok a ∧ f a = .error e := by
  cases r <;> simp [bind, Except.bind]

theorem map_eq_ok_iff {f : α → β} {b : β} : r.map f = .ok b ↔ ∃ a, r = .ok a ∧ f a = b := by
  cases r <;> simp [Except.map]

theorem map_eq_error_iff {f : α → β} {e : ε} : r.map f = .error e ↔ r = .error e := by
  cases r <;> simp [Except.map]

@[simp] theorem mapError_ok (f : ε → ε') (a : α) : (Except.ok a).mapError f = .ok a := rfl

@[simp] theorem mapError_error (f : ε → ε') (e : ε) :
    (Except.error e : Except ε α).mapError f = .error (f e) := rfl

theorem mapError_eq_ok_iff {f : ε → ε'} {a : α} : r.mapError f = .ok a ↔ r = .ok a := by
  cases r <;> simp

theorem mapError_eq_error_iff {f : ε → ε'} {e : ε'} :
    r.mapError f = .error e ↔ ∃ e', r = .error e' ∧ f e' = e := by
  cases r <;> simp

end ShapedJson.Results
