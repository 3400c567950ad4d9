import ShapedJson.Proofs.Shape.Projections
import ShapedJson.Proofs.Shape.Validation

/-!
# Narrower shapes

A shape is made narrower when some of the fields of its objects are deleted, at any depths.  What
conforms to a shape conforms to the narrower one, and what is left of it is what was left before
without the deleted fields, in each item of an array alike.
-/

namespace ShapedJson

/-- A way on from an object or an array: to what stands under a name, or to the items.  All items of
an array are reached in the same way. -/
inductive Branch where
  | field (key : Text)
  | items
  deriving DecidableEq, Repr

/-- Some of the places in a shape or a value, each given by the way to it from the root. -/
def Places : Type := List Branch → Bool

/-- The same places, seen from what a branch leads to. -/
def Places.inside (places : Places) (branch : Branch) : Places :=
  fun way => places (branch :: way)

namespace Shape

mutual

/-- The shape without the fields at some places. -/
def without : Places → Shape → Shape
  | _, .leaf kind => .leaf kind
  | gone, .array item => .array (without (gone.inside .items) item)
  | gone, .object fields => .object (withoutFields gone fields)

/-- The fields of an object that are left, each without what is gone inside of it. -/
def withoutFields : Places → List (Text × Shape) → List (Text × Shape)
  | _, [] => []
  | gone, (k, s) :: rest =>
    if gone [.field k] then withoutFields gone rest
    else (k, without (gone.inside (.field k)) s) :: withoutFields gone rest

end

end Shape

namespace Json

mutual

/-- The value without the fields at some places. -/
def without : Places → Json → Json
  | gone, .array items => .array (withoutItems (gone.inside .items) items)
  | gone, .object fields => .object (withoutFields gone fields)
  | _, v => v

/-- The items, each without what is gone inside of it. -/
def withoutItems : Places → List Json → List Json
  | _, [] => []
  | gone, v :: rest => without gone v :: withoutItems gone rest

/-- The fields of an object that are left, each without what is gone inside of it. -/
def withoutFields : Places → List (Text × Json) → List (Text × Json)
  | _, [] => []
  | gone, (k, v) :: rest =>
    if gone [.field k] then withoutFields gone rest
    else (k, without (gone.inside (.field k)) v) :: withoutFields gone rest

end

theorem withoutItems_eq_map (gone : Places) (items : List Json) :
    withoutItems gone items = items.map (without gone) := by
  induction items with
  | nil => rfl
  | cons v rest ih => rw [withoutItems, ih, List.map_cons]

end Json

namespace Shape

variable {s : Shape} {fields : List (Text × Shape)} {given : List (Text × Json)} {v : Json}
  {gone : Places}

/-! ## Names -/

theorem names_withoutFields_sublist (gone : Places) (fields : List (Text × Shape)) :
    (Fields.names (withoutFields gone fields)).Sublist (Fields.names fields) := by
  induction fields with
  | nil => exact List.Sublist.slnil
  | cons f rest ih =>
      obtain ⟨k, s⟩ := f
      rw [withoutFields]
      split
      · exact ih.cons k
      · exact ih.cons_cons k

/-- Each field that is left comes from a field of the shape. -/
theorem mem_withoutFields {f : Text × Shape} (h : f ∈ withoutFields gone fields) :
    ∃ g ∈ fields, f = (g.1, g.2.without (gone.inside (.field g.1))) := by
  induction fields with
  | nil => cases h
  | cons g rest ih =>
      obtain ⟨k, s⟩ := g
      rw [withoutFields] at h
      split at h
      · obtain ⟨g, hg, hf⟩ := ih h
        exact ⟨g, List.mem_cons_of_mem _ hg, hf⟩
      · rcases List.mem_cons.1 h with rfl | h
        · exact ⟨(k, s), by simp, rfl⟩
        · obtain ⟨g, hg, hf⟩ := ih h
          exact ⟨g, List.mem_cons_of_mem _ hg, hf⟩

/-- A property of names that passes to some of them passes to the narrower shape. -/
theorem everyObject_without {p : List Text → Prop} (hclosed : SublistClosed p)
    (h : s.EveryObject p) (gone : Places) : (s.without gone).EveryObject p := by
  induction s generalizing gone with
  | leaf kind => exact .leaf kind
  | array item ih =>
      rw [everyObject_array] at h
      exact .array _ (ih h _)
  | object fields ih =>
      rw [everyObject_object] at h
      refine .object _ (hclosed _ _ (names_withoutFields_sublist gone fields) h.1) fun f hf => ?_
      obtain ⟨g, hg, rfl⟩ := mem_withoutFields hf
      exact ih g hg (h.2 g hg) _

theorem encodable_without (h : s.Encodable) (gone : Places) : (s.without gone).Encodable :=
  everyObject_without sublistClosed_encodable h gone

/-! ## Values -/

/-- What conforms to a shape conforms to the narrower one. -/
theorem Conforms.without (h : s.Conforms v) (gone : Places) : (s.without gone).Conforms v := by
  induction s generalizing v gone with
  | leaf kind => exact h
  | array item ih =>
      cases h with
      | nullArray => exact .nullArray _
      | array _ items each => exact .array _ items fun v hv => ih (each v hv) _
  | object fields ih =>
      cases h with
      | object _ given present each =>
          refine .object _ given (fun f hf => ?_) fun f hf v hv => ?_
          · obtain ⟨g, hg, rfl⟩ := mem_withoutFields hf
            exact present g hg
          · obtain ⟨g, hg, rfl⟩ := mem_withoutFields hf
            exact ih g hg (each g hg v hv) _

/-- The fields that are left of a projection are projected to what is left of their shapes. -/
theorem projectFields_withoutFields
    (h : ∀ f ∈ fields, ∀ v, given.lookup f.1 = some v → ∀ gone,
      (f.2.without gone).project v = (f.2.project v).without gone) (gone : Places) :
    projectFields (withoutFields gone fields) given =
      Json.withoutFields gone (projectFields fields given) := by
  induction fields with
  | nil => rfl
  | cons f rest ih =>
      obtain ⟨k, s⟩ := f
      have ih := ih fun f hf => h f (List.mem_cons_of_mem _ hf)
      rw [withoutFields]
      by_cases hgone : gone [.field k] = true
      · -- the field is gone from the shape, and from the projection if it is there
        rw [if_pos hgone, ih, projectFields]
        cases given.lookup k with
        | none => rfl
        | some v => simp only [Json.withoutFields, if_pos hgone]
      · rw [if_neg hgone, projectFields, projectFields, ih]
        cases hv : given.lookup k with
        | none => rfl
        | some v =>
            simp only [Json.withoutFields, if_neg hgone, h (k, s) (by simp) v hv]

/-- A narrower shape leaves of a value what the shape leaves, without the deleted fields. -/
theorem project_without (h : s.Conforms v) (gone : Places) :
    (s.without gone).project v = (s.project v).without gone := by
  induction s generalizing v gone with
  | leaf kind => cases h <;> rfl
  | array item ih =>
      cases h with
      | nullArray => rfl
      | array _ items each =>
          rw [Shape.without, project, project]
          show Json.array (items.map (item.without (gone.inside .items)).project) =
            .array (Json.withoutItems (gone.inside .items) (items.map item.project))
          rw [Json.withoutItems_eq_map, List.map_map]
          exact congrArg Json.array (List.map_congr_left fun v hv => ih (each v hv) _)
  | object fields ih =>
      cases h with
      | object _ given present each =>
          rw [Shape.without, project, project]
          exact congrArg Json.object (projectFields_withoutFields
            (fun f hf v hv gone => ih f hf (each f hf v hv) gone) gone)

end Shape

namespace Validator

/-- Deleting fields from a shape is safe.  The narrower shape has a validator as well, which accepts
every value that is accepted for the shape.  It gives the same result without the deleted fields,
for the value and also for the result itself. -/
theorem check_without (shape : Shape) (names : shape.Encodable) (distinct : shape.Distinct)
    (gone : Places) :
    ∃ validator narrower, ofShape shape = .ok validator ∧
      ofShape (shape.without gone) = .ok narrower ∧
      ∀ v r, validator.check v = .ok r →
        narrower.check v = .ok (r.without gone) ∧ narrower.check r = .ok (r.without gone) := by
  refine ⟨⟨shape⟩, ⟨shape.without gone⟩, Shape.ofShape_eq_ok_iff.2 ⟨names, rfl⟩,
    Shape.ofShape_eq_ok_iff.2 ⟨Shape.encodable_without names gone, rfl⟩, fun v r hcheck => ?_⟩
  obtain ⟨hconforms, rfl⟩ := check_eq_ok_iff.1 hcheck
  refine ⟨check_eq_ok_iff.2
    ⟨hconforms.without gone, (Shape.project_without hconforms gone).symm⟩, ?_⟩
  -- the result is its own projection, so the same holds for it as for the value
  have hresult := Shape.conforms_project distinct hconforms
  have hproject := Shape.project_without hresult gone
  rw [Shape.project_project distinct hconforms] at hproject
  exact check_eq_ok_iff.2 ⟨hresult.without gone, hproject.symm⟩

/-- A field of the root and one inside of the items of an array are deleted, the latter with all
that stands below it. -/
theorem check_without_inner_fields :
    let shape : Shape := .object
      [(text "a", .leaf .string), (text "rows", .array (.object
        [(text "x", .leaf .number), (text "y", .object [(text "z", .leaf .boolean)])]))]
    let gone : Places := fun way =>
      way = [.field (text "a")] ∨ way = [.field (text "rows"), .items, .field (text "y")]
    let v : Json := .object
      [(text "rows", .array
        [.object [(text "y", .object [(text "z", .bool true)]), (text "x", .int 1),
            (text "b", .null)],
          .object [(text "x", .null), (text "y", .object [(text "z", .null)])]]),
        (text "a", .string (text "s"))]
    let r : Json := .object
      [(text "a", .string (text "s")), (text "rows", .array
        [.object [(text "x", .int 1), (text "y", .object [(text "z", .bool true)])],
          .object [(text "x", .null), (text "y", .object [(text "z", .null)])]])]
    let less : Json := .object
      [(text "rows", .array [.object [(text "x", .int 1)], .object [(text "x", .null)]])]
    shape.without gone = .object [(text "rows", .array (.object [(text "x", .leaf .number)]))] ∧
      ∃ validator narrower, ofShape shape = .ok validator ∧
        ofShape (shape.without gone) = .ok narrower ∧ validator.check v = .ok r ∧
        narrower.check v = .ok less ∧ narrower.check r = .ok less := by
  intro shape gone v r less
  have hrows : text "a" ≠ text "rows" := by decide
  have hxy : text "x" ≠ text "y" := by decide
  have hshape : shape.Encodable ∧ shape.Distinct := by
    simp [Shape.Encodable, Shape.Distinct, Fields.names, shape, hrows, hxy]
  obtain ⟨validator, narrower, hvalidator, hnarrower, hcheck⟩ :=
    check_without shape hshape.1 hshape.2 gone
  have hv : validator.check v = .ok r := by
    obtain ⟨-, rfl⟩ := Shape.ofShape_eq_ok_iff.1 hvalidator
    rfl
  have hless : r.without gone = less := rfl
  have hnarrow := hcheck v r hv
  rw [hless] at hnarrow
  exact ⟨rfl, validator, narrower, hvalidator, hnarrower, hv, hnarrow⟩

end Validator

end ShapedJson
