import ShapedJson.Proofs.Shape.Conformance
import ShapedJson.Proofs.Shape.Names

/-!
# Checking by way of a schema

No two slots of a record have the same plain name, so what is filled in from the value under a
key is given out under that key again.  A schema checks as its shape does: the plain names leave
no trace, whatever the keys are.  So a validator accepts exactly the values that conform to its
shape and gives their projection.
-/

namespace ShapedJson

namespace Instance

theorem dumpItems_eq_map (items : List Instance) : dumpItems items = items.map dump := by
  induction items with
  | nil => rfl
  | cons i rest ih => rw [dumpItems, ih, List.map_cons]

theorem relabel_cons_of_not_mem {labels : List (Text × Text)} {name : Text}
    (h : name ∉ labels.map Prod.fst) (v : Json) (entries : List (Text × Json)) :
    relabel labels ((name, v) :: entries) = relabel labels entries := by
  induction labels with
  | nil => rfl
  | cons l rest ih =>
      rw [List.map_cons, List.mem_cons, not_or] at h
      have hne : (l.1 == name) = false := beq_eq_false_iff_ne.2 fun e => h.1 e.symm
      have ih := ih h.2
      unfold relabel at ih ⊢
      rw [List.filterMap_cons, List.filterMap_cons, ih, List.lookup_cons, hne]

end Instance

namespace Shape

theorem slotName_injective {i j : Nat} (h : slotName i = slotName j) : i = j :=
  Text.ofNat_injective (List.append_cancel_left h)

/-- The plain names from a place on are none of those before it. -/
theorem slotName_not_mem_slotsFrom {place index : Nat} (h : place < index)
    (fields : List (Text × Shape)) :
    slotName place ∉ ((slotsFrom index fields).map Slot.label).map Prod.fst := by
  induction fields generalizing index with
  | nil => simp [slotsFrom]
  | cons f rest ih =>
      obtain ⟨k, s⟩ := f
      rw [slotsFrom, List.map_cons, List.map_cons, List.mem_cons]
      rintro (hname | hrest)
      · have := slotName_injective hname
        omega
      · exact ih (by omega) hrest

theorem map_checkEach {α β : Type} (f : Json → Gathered Violation α) (g : α → β) (index : Nat)
    (items : List Json) :
    (checkEach f index items).map (List.map g) = checkEach (fun v => (f v).map g) index items := by
  induction items generalizing index with
  | nil => rfl
  | cons v rest ih =>
      rw [checkEach, checkEach, ← ih]
      cases f v with
      | error e => cases checkEach f (index + 1) rest <;> rfl
      | ok a => cases checkEach f (index + 1) rest <;> rfl

/-- Slots are filled as fields are checked, errors included. -/
theorem validateSlots_slotsFrom {fields : List (Text × Shape)}
    (hfields : ∀ f ∈ fields, ∀ v, (f.2.schema.validate v).map Instance.dump = f.2.check v)
    (index : Nat) (given : List (Text × Json)) :
    (Schema.validateSlots (slotsFrom index fields) given).map (fun entries =>
      Instance.relabel ((slotsFrom index fields).map Slot.label) (Instance.dumpEntries entries)) =
      checkFields fields given := by
  induction fields generalizing index with
  | nil => rfl
  | cons f rest ih =>
      obtain ⟨k, s⟩ := f
      have hs := hfields (k, s) (by simp)
      have ih := ih (fun f hf => hfields f (by simp [hf])) (index + 1)
      have hfresh := slotName_not_mem_slotsFrom (Nat.lt_succ_self index) rest
      -- the entry of this slot comes out under its key, and the others do not see it
      have hcons : ∀ (i : Instance) (entries : List (Text × Instance)),
          Instance.relabel ((slotsFrom index ((k, s) :: rest)).map Slot.label)
              (Instance.dumpEntries ((slotName index, i) :: entries)) =
            (k, i.dump) :: Instance.relabel ((slotsFrom (index + 1) rest).map Slot.label)
              (Instance.dumpEntries entries) := by
        intro i entries
        rw [slotsFrom, List.map_cons, Instance.dumpEntries,
          ← Instance.relabel_cons_of_not_mem hfresh i.dump]
        simp [Instance.relabel, Slot.label]
      rw [slotsFrom, Schema.validateSlots, checkFields, ← ih]
      cases given.lookup k with
      | none => cases Schema.validateSlots (slotsFrom (index + 1) rest) given <;> rfl
      | some v =>
          simp only [← hs v]
          cases s.schema.validate v with
          | error e => cases Schema.validateSlots (slotsFrom (index + 1) rest) given <;> rfl
          | ok i =>
              cases Schema.validateSlots (slotsFrom (index + 1) rest) given with
              | error e => rfl
              | ok entries => exact congrArg Except.ok (hcons i entries)

/-- A schema checks as its shape does. -/
theorem validate_schema (s : Shape) :
    ∀ v : Json, (s.schema.validate v).map Instance.dump = s.check v := by
  induction s with
  | leaf kind =>
      intro v
      rw [schema, Schema.validate, check]
      show ((checkLeaf kind v).map Instance.plain).map Instance.dump = checkLeaf kind v
      cases checkLeaf kind v <;> rfl
  | array item ih =>
      intro v
      rw [schema, Schema.validate, check]
      cases v with
      | array items =>
          have hitems := map_checkEach item.schema.validate Instance.dump 0 items
          rw [funext ih] at hitems
          -- what is given out item by item is what is checked item by item
          show ((Shape.checkEach item.schema.validate 0 items).map Instance.list).map
              Instance.dump = (checkEach item.check 0 items).map Json.array
          rw [← hitems]
          cases checkEach item.schema.validate 0 items with
          | error e => rfl
          | ok is =>
              show Except.ok (Json.array (Instance.dumpItems is)) = _
              rw [Instance.dumpItems_eq_map]
              rfl
      | _ => rfl
  | object fields ih =>
      intro v
      rw [schema, Schema.validate, check]
      cases v with
      | object given =>
          show ((Schema.validateSlots (slotsFrom 0 fields) given).map
              (Instance.record ((slotsFrom 0 fields).map Slot.label))).map Instance.dump =
            (checkFields fields given).map Json.object
          rw [← validateSlots_slotsFrom ih 0 given]
          cases Schema.validateSlots (slotsFrom 0 fields) given <;> rfl
      | _ => rfl

end Shape

namespace Validator

/-- A validator checks as its shape does. -/
theorem check_eq (validator : Validator) (v : Json) :
    validator.check v = validator.shape.check v :=
  Shape.validate_schema validator.shape v

/-- A validator accepts exactly the values that conform to its shape, and gives their projection. -/
theorem check_eq_ok_iff {validator : Validator} {v r : Json} :
    validator.check v = .ok r ↔ validator.shape.Conforms v ∧ r = validator.shape.project v := by
  rw [check_eq]
  exact validator.shape.check_eq_ok_iff v r

/-- A shape with encodable names has a validator, which accepts exactly the values that conform
to the shape and gives the projection of each. -/
theorem ofShape_accepts_iff_conforms (shape : Shape) (names : shape.Encodable) :
    ∃ validator, ofShape shape = .ok validator ∧
      ∀ v r : Json, validator.check v = .ok r ↔ shape.Conforms v ∧ r = shape.project v := by
  refine ⟨⟨shape⟩, Shape.ofShape_eq_ok_iff.2 ⟨names, rfl⟩, fun v r => ?_⟩
  rw [check_eq]
  exact shape.check_eq_ok_iff v r

/-- Keys that look like plain names of other slots are kept apart: here the first slot, named
`field_0`, stands for the key `field_1`, and the second one for the key `field_0`. -/
theorem ofShape_accepts_crossed_keys :
    ∃ validator,
      ofShape (.object
        [(text "field_1", .array (.leaf .number)),
          (text "field_0", .object [(text "type", .leaf .string)])]) = .ok validator ∧
      validator.check (.object
        [(text "field_0", .object [(text "more", .bool true), (text "type", .null)]),
          (text "field_2", .null), (text "field_1", .array [.int 7, .null])]) =
        .ok (.object
          [(text "field_1", .array [.int 7, .null]),
            (text "field_0", .object [(text "type", .null)])]) := by
  have hnames : (Shape.object
      [(text "field_1", .array (.leaf .number)),
        (text "field_0", .object [(text "type", .leaf .string)])]).Encodable := by
    simp [Shape.Encodable, Fields.names]
  obtain ⟨validator, hshape, hcheck⟩ := ofShape_accepts_iff_conforms _ hnames
  refine ⟨validator, hshape, (hcheck _ _).2 ⟨?_, rfl⟩⟩
  exact ((Shape.check_eq_ok_iff _ _ _).1 rfl).1

end Validator

end ShapedJson
