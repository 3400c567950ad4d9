import ShapedJson.Proofs.Shape.Reordering
import ShapedJson.Proofs.Shape.Separation
import ShapedJson.Proofs.Shape.Validation

/-!
# Validators that agree

Two validators agree on a value when both refuse it, or both accept it and their results differ at
most in the order of fields.  The validators of two shapes agree on every value exactly when the
shapes are alike.
-/

namespace ShapedJson

namespace Validator

/-- Both refuse the value, or both accept it with results that differ at most in the order of
fields. -/
inductive Agree (x y : Validator) (v : Json) : Prop
  | refused {vs vs' : List Violation} (left : x.check v = .error vs)
      (right : y.check v = .error vs')
  | accepted {r r' : Json} (left : x.check v = .ok r) (right : y.check v = .ok r')
      (same : r.Rearranged r')

variable {a b : Shape} {x y : Validator} {v : Json}

theorem isValid_eq_true_iff : x.isValid v = true ↔ x.shape.Conforms v := by
  rw [isValid]
  cases h : x.check v with
  | ok r => simpa using (check_eq_ok_iff.1 h).1
  | error vs =>
      refine iff_of_false (by simp) fun hconforms => ?_
      cases h.symm.trans (check_eq_ok_iff.2 ⟨hconforms, rfl⟩)

/-- Validators that agree on a value do so on whether it is accepted. -/
theorem Agree.isValid_eq (h : x.Agree y v) : x.isValid v = y.isValid v := by
  cases h with
  | refused left right => rw [isValid, isValid, left, right]
  | accepted left right same => rw [isValid, isValid, left, right]

/-- The validators of shapes that are alike agree on every value. -/
theorem agree_of_alike (ha : a.Distinct) (h : a.alike b = true) (v : Json) :
    Agree ⟨a⟩ ⟨b⟩ v := by
  have hb := Shape.distinct_of_alike ha h
  have hconforms := Shape.conforms_iff_of_alike ha hb h v
  cases hx : check ⟨a⟩ v with
  | ok r =>
      obtain ⟨hv, rfl⟩ := check_eq_ok_iff.1 hx
      exact .accepted hx (check_eq_ok_iff.2 ⟨hconforms.1 hv, rfl⟩)
        (Shape.rearranged_project_of_alike ha hb h hv)
  | error vs =>
      cases hy : check ⟨b⟩ v with
      | error vs' => exact .refused hx hy
      | ok r =>
          have hv := hconforms.2 (check_eq_ok_iff.1 hy).1
          cases hx.symm.trans (check_eq_ok_iff.2 ⟨hv, rfl⟩)

theorem isValid_ne_of_separates (h : Shape.Separates v a b) : isValid ⟨a⟩ v ≠ isValid ⟨b⟩ v := by
  intro heq
  have hvalid : isValid ⟨a⟩ v = true := isValid_eq_true_iff.2 h.conforms
  exact h.violates (isValid_eq_true_iff.1 (heq.symm.trans hvalid))

/-- The validators of shapes that are not alike differ in whether they accept some value. -/
theorem exists_isValid_ne (ha : a.Distinct) (hb : b.Distinct) (h : a.alike b = false) :
    ∃ v, v.Distinct ∧ isValid ⟨a⟩ v ≠ isValid ⟨b⟩ v := by
  obtain ⟨v, hv | hv⟩ := Shape.exists_separates ha hb h
  · exact ⟨v, hv.distinct, isValid_ne_of_separates hv⟩
  · exact ⟨v, hv.distinct, (isValid_ne_of_separates hv).symm⟩

/-- Two shapes are alike exactly when their validators agree on every value, and shapes that are not
alike are told apart by whether some value is accepted.  A description whose fields are put in
another order, at any depth, is refused when the first one is, and has a validator that agrees with
that of the first one when it is not. -/
theorem alike_iff_agree (ha : a.Encodable) (hb : b.Encodable) (hda : a.Distinct)
    (hdb : b.Distinct) :
    ∃ x y, ofShape a = .ok x ∧ ofShape b = .ok y ∧
      (a.alike b = true ↔ ∀ v, v.Distinct → x.Agree y v) ∧
      (a.alike b = false → ∃ v, v.Distinct ∧ x.isValid v ≠ y.isValid v) ∧
      ∀ limit raw raw', raw.Distinct → raw.Rearranged raw' →
        ((∃ e, Shape.ofDescription limit raw = .error e) ↔
          ∃ e, Shape.ofDescription limit raw' = .error e) ∧
        (Shape.ofDescription limit raw = .ok a →
          ∃ a' x', Shape.ofDescription limit raw' = .ok a' ∧ ofShape a' = .ok x' ∧
            ∀ v, x.Agree x' v) := by
  refine ⟨⟨a⟩, ⟨b⟩, Shape.ofShape_eq_ok_iff.2 ⟨ha, rfl⟩, Shape.ofShape_eq_ok_iff.2 ⟨hb, rfl⟩,
    ⟨fun h v _ => agree_of_alike hda h v, fun hagree => ?_⟩, exists_isValid_ne hda hdb,
    fun limit raw raw' hraw hrearranged => ⟨?_, fun hdescribed => ?_⟩⟩
  · by_contra hne
    obtain ⟨v, hv, hvalid⟩ := exists_isValid_ne hda hdb (eq_false_of_ne_true hne)
    exact hvalid (hagree v hv).isValid_eq
  · exact Shape.describe_refused_iff_of_rearranged hrearranged hraw
  · obtain ⟨a', ha', halike⟩ := Shape.describe_of_rearranged hrearranged hraw hdescribed
    exact ⟨a', ⟨a'⟩, ha', Shape.ofShape_eq_ok_iff.2 ⟨Shape.encodable_of_alike hda halike ha, rfl⟩,
      agree_of_alike hda halike⟩

/-- The order of fields does not matter, at whatever depth, and the kind of a leaf does. -/
theorem alike_iff_agree_on_inner_fields :
    let a : Shape := .object
      [(text "x", .leaf .string), (text "y", .array (.object
        [(text "x", .leaf .number), (text "z", .leaf .string)]))]
    let b : Shape := .object
      [(text "y", .array (.object [(text "z", .leaf .string), (text "x", .leaf .number)])),
        (text "x", .leaf .string)]
    let c : Shape := .object
      [(text "x", .leaf .string), (text "y", .array (.object
        [(text "x", .leaf .number), (text "z", .leaf .boolean)]))]
    ∃ x y z, ofShape a = .ok x ∧ ofShape b = .ok y ∧ ofShape c = .ok z ∧
      (∀ v, v.Distinct → x.Agree y v) ∧ ∃ v, v.Distinct ∧ x.isValid v ≠ z.isValid v := by
  intro a b c
  have hxy : text "x" ≠ text "y" := by decide
  have hxz : text "x" ≠ text "z" := by decide
  have ha : a.Encodable ∧ a.Distinct := by
    simp [Shape.Encodable, Shape.Distinct, Fields.names, a, hxy, hxz]
  have hb : b.Encodable ∧ b.Distinct := by
    simp [Shape.Encodable, Shape.Distinct, Fields.names, b, hxy.symm, hxz.symm]
  have hc : c.Encodable ∧ c.Distinct := by
    simp [Shape.Encodable, Shape.Distinct, Fields.names, c, hxy, hxz]
  obtain ⟨x, y, hx, hy, hagree, -⟩ := alike_iff_agree ha.1 hb.1 ha.2 hb.2
  obtain ⟨x', z, hx', hz, -, hdiffer, -⟩ := alike_iff_agree ha.1 hc.1 ha.2 hc.2
  obtain rfl := Except.ok.inj (hx.symm.trans hx')
  exact ⟨x, y, z, hx, hy, hz, hagree.1 (by decide), hdiffer (by decide)⟩

end Validator

end ShapedJson
