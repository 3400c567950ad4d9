import ShapedJson.Proofs.Shape.Described

/-!
# Nodes of descriptions

The nodes of a description in the order of a traversal from the root: a node, then the nodes below
it, those of the fields of an object in the order of the fields and those of the items of an array.
A node can be at fault by itself: it lies too deep, or is of no known kind, or is an array without
a description of its items.  A description is refused for the first node at fault, and read when
there is none.
-/

namespace ShapedJson

/-- A node of a description and the keys that lead to it. -/
structure Node where
  path : List Text
  raw : Json

/-- The description of the items among what a description gives. -/
def Json.items? : Json → Option Json
  | .object fields => fields.lookup itemsKey
  | _ => none

namespace Node

/-- The same node, seen from the node above. -/
def under (key : Text) (n : Node) : Node := ⟨key :: n.path, n.raw⟩

/-- The path to the node in words. -/
def location (n : Node) : Text := text "$" ++ n.path.flatMap fun key => text "." ++ key

/-- What makes the node unusable by itself, if anything. -/
def defect? (limit : Int) (n : Node) : Option Defect :=
  if limit < n.path.length then some .tooDeep
  else
    match Kind.ofJson? n.raw.describedKind with
    | none => some (.unsupportedKind n.raw.describedKind)
    | some .array => if n.raw.items?.isNone then some .missingItems else none
    | some _ => none

/-- The error of the node by itself, if any. -/
def error? (limit : Int) (n : Node) : Option DescriptionError :=
  (n.defect? limit).map (DescriptionError.mk n.path)

end Node

namespace Json

mutual

/-- The nodes of a description in the order of a traversal. -/
def nodes : Json → List Node
  | .object fields =>
    ⟨[], .object fields⟩ ::
      match Kind.ofJson? (Json.describedKind (.object fields)) with
      | some .array => nodesOfItems fields
      | some .object => nodesOfFields fields
      | _ => []
  | raw => [⟨[], raw⟩]

/-- The nodes of what describes the items of an array. -/
def nodesOfItems : List (Text × Json) → List Node
  | [] => []
  | (k, v) :: rest => if k = itemsKey then (nodes v).map (Node.under k) else nodesOfItems rest

/-- The nodes of the fields of an object; what stands under the key of the type is none of them. -/
def nodesOfFields : List (Text × Json) → List Node
  | [] => []
  | (k, v) :: rest =>
    (if k = typeKey then [] else (nodes v).map (Node.under k)) ++ nodesOfFields rest

end

end Json

namespace Results

variable {ε ε' α β : Type}

/-- The error of a result, if there is one. -/
def error? : Except ε α → Option ε
  | .ok _ => none
  | .error e => some e

theorem error?_eq_some_iff {r : Except ε α} {e : ε} : error? r = some e ↔ r = .error e := by
  cases r <;> simp [error?]

theorem error?_map (f : α → β) (r : Except ε α) : error? (r.map f) = error? r := by
  cases r <;> rfl

theorem error?_mapError (f : ε → ε') (r : Except ε α) :
    error? (r.mapError f) = (error? r).map f := by
  cases r <;> rfl

end Results

open Results

namespace Node

theorem error?_root_of_neg {limit : Int} (h : limit < 0) (raw : Json) :
    error? limit ⟨[], raw⟩ = some (.here .tooDeep) := by
  simp [error?, defect?, h, DescriptionError.here]

theorem error?_root {limit : Int} (h : ¬ limit < 0) (raw : Json) :
    error? limit ⟨[], raw⟩ =
      match Kind.ofJson? raw.describedKind with
      | none => some (.here (.unsupportedKind raw.describedKind))
      | some .array => if raw.items?.isNone then some (.here .missingItems) else none
      | some _ => none := by
  have hroot : ¬ limit < (([] : List Text).length : Int) := h
  rw [error?, defect?, if_neg hroot]
  dsimp only
  cases Kind.ofJson? raw.describedKind with
  | none => rfl
  | some kind =>
      cases kind with
      | leaf | object => rfl
      | array => cases raw.items? <;> rfl

theorem error?_under (limit : Int) (key : Text) (n : Node) :
    (n.under key).error? limit = (n.error? (limit - 1)).map (DescriptionError.under key) := by
  have hlength : limit < ((n.under key).path.length : Int) ↔ limit - 1 < (n.path.length : Int) := by
    simp only [under, List.length_cons]
    omega
  have hdefect : (n.under key).defect? limit = n.defect? (limit - 1) := by
    simp only [defect?, hlength]
    rfl
  rw [error?, error?, hdefect, Option.map_map]
  rfl

theorem findSome?_error?_under (limit : Int) (key : Text) (ns : List Node) :
    (ns.map (under key)).findSome? (error? limit) =
      (ns.findSome? (error? (limit - 1))).map (DescriptionError.under key) := by
  rw [List.findSome?_map, List.map_findSome?]
  exact congrArg (ns.findSome? ·) (funext (error?_under limit key))

end Node

namespace Shape

theorem describeItems_eq (room : Int) (fields : List (Text × Json)) :
    describeItems room fields =
      match fields.lookup itemsKey with
      | none => .error (.here .missingItems)
      | some v => (describe room v).mapError (.under itemsKey) := by
  induction fields with
  | nil => rfl
  | cons f rest ih =>
      obtain ⟨k, v⟩ := f
      rw [describeItems]
      by_cases h : k = itemsKey
      · rw [if_pos h, h, List.lookup_cons_self]
      · have hne : (itemsKey == k) = false := beq_eq_false_iff_ne.2 fun e => h e.symm
        rw [if_neg h, ih, List.lookup_cons, hne]

theorem nodesOfItems_eq (fields : List (Text × Json)) :
    Json.nodesOfItems fields =
      match fields.lookup itemsKey with
      | none => []
      | some v => v.nodes.map (Node.under itemsKey) := by
  induction fields with
  | nil => rfl
  | cons f rest ih =>
      obtain ⟨k, v⟩ := f
      rw [Json.nodesOfItems]
      by_cases h : k = itemsKey
      · rw [if_pos h, h, List.lookup_cons_self]
      · have hne : (itemsKey == k) = false := beq_eq_false_iff_ne.2 fun e => h e.symm
        rw [if_neg h, ih, List.lookup_cons, hne]

/-- The first of the fields that is refused is what the fields are refused for. -/
theorem error?_describeFields {room : Int} {fields : List (Text × Json)}
    (h : ∀ f ∈ fields, error? (describe (room - 1) f.2) = f.2.nodes.findSome? (Node.error? (room - 1))) :
    error? (describeFields (room - 1) fields) =
      (Json.nodesOfFields fields).findSome? (Node.error? room) := by
  induction fields with
  | nil => rfl
  | cons f rest ih =>
      obtain ⟨k, v⟩ := f
      have hv := h (k, v) (by simp)
      rw [Json.nodesOfFields, List.findSome?_append, ← ih fun g hg => h g (List.mem_cons_of_mem _ hg),
        describeFields]
      by_cases hk : k = typeKey
      · rw [if_pos hk, if_pos hk]
        rfl
      · rw [if_neg hk, if_neg hk, Node.findSome?_error?_under, ← hv]
        cases describe (room - 1) v with
        | error e => rfl
        | ok s => cases describeFields (room - 1) rest <;> rfl

/-- The error of a description is that of the first node at fault. -/
theorem error?_describe (raw : Json) :
    ∀ room, error? (describe room raw) = raw.nodes.findSome? (Node.error? room) := by
  induction raw with
  | null | bool b | number n | string t | array items =>
      intro room
      rw [describe, Json.nodes, List.findSome?_singleton]
      · by_cases hroom : room < 0
        · rw [if_pos hroom, Node.error?_root_of_neg hroom]
          rfl
        · rw [if_neg hroom, Node.error?_root hroom]
          rfl
      · rintro fields ⟨⟩
  | object fields ih =>
      intro room
      rw [describe, Json.nodes, List.findSome?_cons]
      by_cases hroom : room < 0
      · rw [if_pos hroom, Node.error?_root_of_neg hroom]
        rfl
      · rw [if_neg hroom, Node.error?_root hroom]
        cases Kind.ofJson? (Json.describedKind (.object fields)) with
        | none => rfl
        | some kind =>
            cases kind with
            | leaf kind => rfl
            | array =>
                show error? ((describeItems (room - 1) fields).map Shape.array) = _
                rw [error?_map, describeItems_eq, nodesOfItems_eq, Json.items?]
                cases hv : fields.lookup itemsKey with
                | none => rfl
                | some v =>
                    have ihv := ih _ (Fields.mem_of_lookup_eq_some hv) (room - 1)
                    simp only [error?_mapError, ihv, Node.findSome?_error?_under]
                    rfl
            | object =>
                show error? ((describeFields (room - 1) fields).map Shape.object) = _
                rw [error?_map, error?_describeFields fun f hf => ih f hf (room - 1)]

theorem describe_eq_error_iff {raw : Json} {room : Int} {e : DescriptionError} :
    describe room raw = .error e ↔
      ∃ before n after, raw.nodes = before ++ n :: after ∧ n.error? room = some e ∧
        ∀ m ∈ before, m.error? room = none := by
  rw [← error?_eq_some_iff, error?_describe, List.findSome?_eq_some_iff]

end Shape

end ShapedJson
