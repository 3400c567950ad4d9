import ShapedJson.Proofs.Text.Encodable
import ShapedJson.Shape.Validator

/-!
# Names of fields

A property of the names of an object is meant for every object of a shape.  A shape has a
validator exactly when all its names are encodable.
-/

namespace ShapedJson.Shape

/-- Whether the names of each object of a shape have a property. -/
inductive EveryObject (p : List Text → Prop) : Shape → Prop
  | leaf (kind : Leaf) : EveryObject p (.leaf kind)
  | array (item : Shape) (inside : EveryObject p item) : EveryObject p (.array item)
  | object (fields : List (Text × Shape)) (here : p (Fields.names fields))
      (inside : ∀ f ∈ fields, EveryObject p f.2) : EveryObject p (.object fields)

variable {p : List Text → Prop}

@[simp] theorem everyObject_leaf (kind : Leaf) : EveryObject p (.leaf kind) := .leaf kind

@[simp] theorem everyObject_array {item : Shape} :
    EveryObject p (.array item) ↔ EveryObject p item :=
  ⟨fun h => by cases h; assumption, .array item⟩

@[simp] theorem everyObject_object {fields : List (Text × Shape)} :
    EveryObject p (.object fields) ↔
      p (Fields.names fields) ∧ ∀ f ∈ fields, EveryObject p f.2 :=
  ⟨fun h => by cases h; exact ⟨‹_›, ‹_›⟩, fun h => .object fields h.1 h.2⟩

/-- Whether no name of a field holds a surrogate. -/
def Encodable (s : Shape) : Prop := s.EveryObject fun names => ∀ name ∈ names, name.Encodable

/-- Whether no object has two fields of one name. -/
def Distinct (s : Shape) : Prop := s.EveryObject List.Nodup

theorem unencodableKey?_eq_none_iff {fields : List (Text × Shape)} :
    unencodableKey? fields = none ↔ ∀ name ∈ Fields.names fields, name.Encodable := by
  simp [unencodableKey?, List.findSome?_eq_none_iff, Text.encodingFault?_eq_none_iff, Fields.names]

theorem unencodableInside?_eq_none_iff {fields : List (Text × Shape)} :
    unencodableInside? fields = none ↔ ∀ f ∈ fields, unencodableName? f.2 = none := by
  induction fields with
  | nil => simp [unencodableInside?]
  | cons f rest ih =>
      obtain ⟨k, s⟩ := f
      simp [unencodableInside?, ih]

theorem unencodableName?_eq_none_iff {s : Shape} : s.unencodableName? = none ↔ s.Encodable := by
  unfold Encodable
  induction s with
  | leaf kind => simp [unencodableName?]
  | array item ih => rw [unencodableName?, ih, everyObject_array]
  | object fields ih =>
      rw [unencodableName?, Option.or_eq_none_iff, unencodableInside?_eq_none_iff,
        unencodableKey?_eq_none_iff, everyObject_object]
      constructor
      · rintro ⟨hinside, hhere⟩
        exact ⟨hhere, fun f hf => (ih f hf).1 (hinside f hf)⟩
      · rintro ⟨hhere, hinside⟩
        exact ⟨fun f hf => (ih f hf).2 (hinside f hf), hhere⟩

/-- A shape has a validator exactly when its names are encodable. -/
theorem ofShape_eq_ok_iff {s : Shape} {validator : Validator} :
    Validator.ofShape s = .ok validator ↔ s.Encodable ∧ validator = ⟨s⟩ := by
  rw [← unencodableName?_eq_none_iff, Validator.ofShape]
  cases s.unencodableName? with
  | none => simp [eq_comm]
  | some fault => simp

end ShapedJson.Shape
