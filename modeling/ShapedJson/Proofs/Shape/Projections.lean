import ShapedJson.Proofs.Shape.Alike
import ShapedJson.Proofs.Shape.Described

/-!
# Projections

What a shape leaves of a value that conforms to it is a value that conforms as well, and of that one
the shape leaves all.  Each part of it is what some part of the shape leaves of a part of the value,
and lies just as deep as the part of the shape.
-/

namespace ShapedJson

/-- The parts of a value, each with the number of steps to it from the whole. -/
inductive Json.HasPart : Json → Nat → Json → Prop
  | whole (v : Json) : HasPart v 0 v
  | item {items : List Json} {v w : Json} {n : Nat} (mem : v ∈ items) (inside : HasPart v n w) :
      HasPart (.array items) (n + 1) w
  | field {fields : List (Text × Json)} {f : Text × Json} {w : Json} {n : Nat} (mem : f ∈ fields)
      (inside : HasPart f.2 n w) : HasPart (.object fields) (n + 1) w

namespace Shape

variable {s : Shape} {fields : List (Text × Shape)} {given : List (Text × Json)} {v w : Json}

theorem projectFields_eq_filterMap (fields : List (Text × Shape)) (given : List (Text × Json)) :
    projectFields fields given =
      fields.filterMap fun f => (given.lookup f.1).map fun v => (f.1, f.2.project v) := by
  induction fields with
  | nil => rfl
  | cons f rest ih =>
      obtain ⟨k, s⟩ := f
      rw [projectFields, List.filterMap_cons]
      cases given.lookup k <;> simp [ih]

/-- A declared field of a projection holds what is left of the value that is given for it. -/
theorem lookup_projectFields_of_mem (hnodup : (Fields.names fields).Nodup) {f : Text × Shape}
    (hf : f ∈ fields) :
    (projectFields fields given).lookup f.1 = (given.lookup f.1).map f.2.project := by
  rw [lookup_projectFields, Fields.lookup_of_mem hnodup hf, Option.bind_some]

/-- A projection conforms to its shape. -/
theorem conforms_project (hs : s.Distinct) (h : s.Conforms v) : s.Conforms (s.project v) := by
  unfold Distinct at hs
  induction s generalizing v with
  | leaf kind =>
      rw [project]
      exact h
  | array item ih =>
      rw [everyObject_array] at hs
      rw [project]
      cases h with
      | nullArray => exact .nullArray item
      | array _ items each =>
          refine .array item _ fun w hw => ?_
          obtain ⟨u, hu, rfl⟩ := List.mem_map.1 hw
          exact ih hs (each u hu)
  | object fields ih =>
      rw [everyObject_object] at hs
      rw [project]
      cases h with
      | object _ given present each =>
          refine .object fields _ (fun f hf => ?_) fun f hf w hw => ?_
          · obtain ⟨u, hu⟩ := present f hf
            exact ⟨f.2.project u, by rw [lookup_projectFields_of_mem hs.1 hf, hu, Option.map_some]⟩
          · rw [lookup_projectFields_of_mem hs.1 hf] at hw
            obtain ⟨u, hu, rfl⟩ := Option.map_eq_some_iff.1 hw
            exact ih f hf (hs.2 f hf) (each f hf u hu)

/-- A projection is its own projection, fields in the same order. -/
theorem project_project (hs : s.Distinct) (h : s.Conforms v) :
    s.project (s.project v) = s.project v := by
  unfold Distinct at hs
  induction s generalizing v with
  | leaf kind => rw [project]
  | array item ih =>
      rw [everyObject_array] at hs
      cases h with
      | nullArray => rfl
      | array _ items each =>
          rw [project]
          show Json.array ((items.map item.project).map item.project) =
            .array (items.map item.project)
          rw [List.map_map]
          exact congrArg Json.array (List.map_congr_left fun u hu => ih hs (each u hu))
  | object fields ih =>
      rw [everyObject_object] at hs
      cases h with
      | object _ given present each =>
          rw [project]
          show Json.object (projectFields fields (projectFields fields given)) =
            .object (projectFields fields given)
          refine congrArg Json.object ?_
          -- field by field: what is left under a name is projected once more
          rw [projectFields_eq_filterMap fields (projectFields fields given),
            projectFields_eq_filterMap fields given]
          refine List.filterMap_congr fun f hf => ?_
          rw [← projectFields_eq_filterMap, lookup_projectFields_of_mem hs.1 hf]
          obtain ⟨u, hu⟩ := present f hf
          rw [hu, Option.map_some, Option.map_some, Option.map_some,
            ih f hf (hs.2 f hf) (each f hf u hu)]

/-- A part of a projection is the projection of some value on a part of the shape, as deep as it. -/
theorem exists_part_of_hasPart_project {n : Nat} (h : s.Conforms v)
    (hpart : (s.project v).HasPart n w) :
    ∃ t u, s.HasPart n t ∧ t.Conforms u ∧ w = t.project u := by
  induction s generalizing v w n with
  | leaf kind =>
      rw [project] at hpart
      have hwhole := h
      -- a leaf admits no containers, so the whole is the only part
      cases h <;> cases hpart <;> exact ⟨_, _, .whole _, hwhole, by rw [project]⟩
  | array item ih =>
      have hwhole := h
      cases h with
      | nullArray =>
          cases hpart with
          | whole => exact ⟨.array item, _, .whole _, hwhole, rfl⟩
      | array _ items each =>
          rw [project] at hpart
          cases hpart with
          | whole => exact ⟨.array item, _, .whole _, hwhole, by rw [project]⟩
          | item mem inside =>
              obtain ⟨u, hu, rfl⟩ := List.mem_map.1 mem
              obtain ⟨t, u', ht, hu', rfl⟩ := ih (each u hu) inside
              exact ⟨t, u', .item ht, hu', rfl⟩
  | object fields ih =>
      have hwhole := h
      cases h with
      | object _ given present each =>
          rw [project] at hpart
          cases hpart with
          | whole => exact ⟨.object fields, _, .whole _, hwhole, by rw [project]⟩
          | field mem inside =>
              obtain ⟨f, hf, u, -, hu, rfl⟩ := mem_projectFields mem
              obtain ⟨t, u', ht, hu', rfl⟩ := ih f hf (each f hf u hu) inside
              exact ⟨t, u', .field hf ht, hu', rfl⟩

end Shape

end ShapedJson
