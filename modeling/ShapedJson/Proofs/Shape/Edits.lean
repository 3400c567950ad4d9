import Mathlib.Logic.Relation
import ShapedJson.Proofs.Shape.Nodes

/-!
# Edits of descriptions

Edits of a node that a description is read at: saying of an object that it is one, changing what
stands beside the type of a leaf or beside the type and the items of an array, and putting another
example of a kind, or the name of the kind, in place of an example.  No number of edits changes
what a description is read as, or what it is refused for.
-/

namespace ShapedJson

namespace Json

/-- The values without parts. -/
inductive IsScalar : Json → Prop
  | null : IsScalar .null
  | bool (b : Bool) : IsScalar (.bool b)
  | number (n : Number) : IsScalar (.number n)
  | string (s : Text) : IsScalar (.string s)

/-- One edit of a node that a description is read at. -/
inductive Edit : Json → Json → Prop
  | object {before after : List (Text × Json)} (untyped : (before ++ after).lookup typeKey = none) :
      Edit (.object (before ++ after))
        (.object (before ++ (typeKey, .string Kind.object.name) :: after))
  | besideLeaf {fields fields' : List (Text × Json)} {leaf : Leaf}
      (type : fields.lookup typeKey = some (.string leaf.name))
      (type' : fields'.lookup typeKey = some (.string leaf.name)) :
      Edit (.object fields) (.object fields')
  | besideItems {fields fields' : List (Text × Json)}
      (type : fields.lookup typeKey = some (.string Kind.array.name))
      (type' : fields'.lookup typeKey = some (.string Kind.array.name))
      (items : fields.lookup itemsKey = fields'.lookup itemsKey) :
      Edit (.object fields) (.object fields')
  | scalar {raw raw' : Json} (scalar : raw.IsScalar) (scalar' : raw'.IsScalar)
      (kind : raw.describedKind = raw'.describedKind) : Edit raw raw'
  | named {raw : Json} (scalar : raw.IsScalar) :
      Edit raw (.object [(typeKey, raw.describedKind)])
  | items {before after : List (Text × Json)} {v v' : Json}
      (kind : (Json.object (before ++ (itemsKey, v) :: after)).HasKind .array)
      (inside : Edit v v') :
      Edit (.object (before ++ (itemsKey, v) :: after)) (.object (before ++ (itemsKey, v') :: after))
  | field {before after : List (Text × Json)} {k : Text} {v v' : Json}
      (kind : (Json.object (before ++ (k, v) :: after)).HasKind .object) (name : k ≠ typeKey)
      (inside : Edit v v') :
      Edit (.object (before ++ (k, v) :: after)) (.object (before ++ (k, v') :: after))

end Json

/-- Another value in a field is not seen under other names. -/
theorem Fields.lookup_append_cons_of_ne {α : Type} {name k : Text} (h : name ≠ k) (v v' : α)
    (before after : List (Text × α)) :
    (before ++ (k, v) :: after).lookup name = (before ++ (k, v') :: after).lookup name := by
  have hne : (name == k) = false := beq_eq_false_iff_ne.2 h
  simp [List.lookup_append, List.lookup_cons, hne]

namespace Shape

variable {room : Int} {fields fields' before after : List (Text × Json)} {k : Text} {v v' : Json}

/-! ## What reading depends on -/

/-- A mapping is read by its kind and by what stands below it as one of that kind. -/
theorem describe_object_congr
    (hkind : (Json.object fields').describedKind = (Json.object fields).describedKind)
    (hitems : (Json.object fields).HasKind .array →
      describeItems (room - 1) fields' = describeItems (room - 1) fields)
    (hfields : (Json.object fields).HasKind .object →
      describeFields (room - 1) fields' = describeFields (room - 1) fields) :
    describe room (.object fields') = describe room (.object fields) := by
  rw [describe, describe, hkind]
  split
  · rfl
  · split
    · rfl
    · rfl
    · rename_i hkind'
      rw [hitems (Json.hasKind_iff.2 hkind')]
    · rename_i hkind'
      rw [hfields (Json.hasKind_iff.2 hkind')]

theorem describedKind_congr (type : fields'.lookup typeKey = fields.lookup typeKey) :
    (Json.object fields').describedKind = (Json.object fields).describedKind := by
  rw [Json.describedKind, Json.describedKind, type]

theorem describeItems_append_congr (h : describe room v' = describe room v) :
    describeItems room (before ++ (k, v') :: after) =
      describeItems room (before ++ (k, v) :: after) := by
  induction before with
  | nil => rw [List.nil_append, List.nil_append, describeItems, describeItems, h]
  | cons f rest ih => rw [List.cons_append, List.cons_append, describeItems, describeItems, ih]

theorem describeFields_append_congr (h : describe room v' = describe room v) :
    describeFields room (before ++ (k, v') :: after) =
      describeFields room (before ++ (k, v) :: after) := by
  induction before with
  | nil => rw [List.nil_append, List.nil_append, describeFields, describeFields, h]
  | cons f rest ih => rw [List.cons_append, List.cons_append, describeFields, describeFields, ih]

/-- What stands under the key of the type is no field. -/
theorem describeFields_append_type :
    describeFields room (before ++ (typeKey, v) :: after) = describeFields room (before ++ after) := by
  induction before with
  | nil => rw [List.nil_append, List.nil_append, describeFields, if_pos rfl]
  | cons f rest ih => rw [List.cons_append, List.cons_append, describeFields, describeFields, ih]

/-- An array is read by what describes its items. -/
theorem describe_items_congr (kind : (Json.object (before ++ (itemsKey, v) :: after)).HasKind .array)
    (h : describe (room - 1) v' = describe (room - 1) v) :
    describe room (.object (before ++ (itemsKey, v') :: after)) =
      describe room (.object (before ++ (itemsKey, v) :: after)) := by
  refine describe_object_congr (describedKind_congr ?_) (fun _ => describeItems_append_congr h)
    fun kind' => ?_
  · exact Fields.lookup_append_cons_of_ne (by decide) v' v before after
  · cases kind.unique kind'

/-- An example of a kind is read as the name of the kind is. -/
theorem describe_scalar {raw : Json} (h : raw.IsScalar) :
    describe room (.object [(typeKey, raw.describedKind)]) = describe room raw := by
  cases h <;> rfl

/-! ## Edits -/

/-- One edit changes nothing in what a description is read as, or refused for. -/
theorem describe_eq_of_edit {raw raw' : Json} (h : raw.Edit raw') :
    ∀ room, describe room raw' = describe room raw := by
  induction h with
  | @object before after untyped =>
      intro room
      have hbefore : before.lookup typeKey = none := by
        rw [List.lookup_append, Option.or_eq_none_iff] at untyped
        exact untyped.1
      have type : (before ++ (typeKey, .string Kind.object.name) :: after).lookup typeKey =
          some (Json.string Kind.object.name) := by
        rw [List.lookup_append, hbefore, Option.none_or, List.lookup_cons_self]
      refine describe_object_congr ?_ (fun kind => ?_) fun _ => describeFields_append_type
      · rw [Json.describedKind, Json.describedKind, type, untyped]
        rfl
      · cases kind.unique (.object untyped)
  | @besideLeaf fields fields' leaf type type' =>
      intro room
      have named : (Json.object fields).HasKind (.leaf leaf) := .named type
      refine describe_object_congr (describedKind_congr (type'.trans type.symm)) (fun kind => ?_)
        fun kind => ?_
      · cases kind.unique named
      · cases kind.unique named
  | besideItems type type' items =>
      intro room
      refine describe_object_congr (describedKind_congr (type'.trans type.symm)) (fun _ => ?_)
        fun kind => ?_
      · rw [describeItems_eq, describeItems_eq, items]
      · cases kind.unique (.named type)
  | scalar scalar scalar' kind =>
      intro room
      rw [← describe_scalar scalar, ← describe_scalar scalar', kind]
  | named scalar => exact fun room => describe_scalar scalar
  | items kind inside ih => exact fun room => describe_items_congr kind (ih (room - 1))
  | field kind name inside ih =>
      intro room
      refine describe_object_congr (describedKind_congr ?_) (fun kind' => ?_) fun _ => ?_
      · exact Fields.lookup_append_cons_of_ne name.symm _ _ _ _
      · cases kind.unique kind'
      · exact describeFields_append_congr (ih (room - 1))

/-- No number of edits changes what a description is read as, or what it is refused for. -/
theorem ofDescription_eq_of_edits (limit : Int) {raw raw' : Json}
    (edits : Relation.ReflTransGen Json.Edit raw raw') :
    ofDescription limit raw' = ofDescription limit raw := by
  induction edits with
  | refl => rfl
  | tail _ edit ih => exact (describe_eq_of_edit edit limit).trans ih

/-- The example of the items becomes the name of its kind, gets a neighbour that means nothing there,
and the whole comes to say that it is an object. -/
theorem ofDescription_eq_of_edits_below_array :
    ofDescription 2 (.object [(typeKey, .string Kind.object.name), (text "ids", .object
      [(itemsKey, .object [(typeKey, .string Leaf.number.name), (itemsKey, .null)]),
        (typeKey, .string Kind.array.name)])]) =
      .ok (.object [(text "ids", .array (.leaf .number))]) := by
  have hread : ofDescription 2 (.object [(text "ids", .object [(itemsKey, Json.int 7),
      (typeKey, .string Kind.array.name)])]) = .ok (.object [(text "ids", .array (.leaf .number))]) := by
    rfl
  have inside : ∀ {v v' : Json}, v.Edit v' →
      (Json.object [(text "ids", .object [(itemsKey, v), (typeKey, .string Kind.array.name)])]).Edit
        (.object [(text "ids", .object [(itemsKey, v'), (typeKey, .string Kind.array.name)])]) :=
    fun edit => @Json.Edit.field [] [] _ _ _ (.object rfl) (by decide)
      (@Json.Edit.items [] _ _ _ (.named rfl) edit)
  have named : Json.Edit (Json.int 7) (.object [(typeKey, .string Leaf.number.name)]) :=
    .named (.number _)
  have beside : Json.Edit (.object [(typeKey, .string Leaf.number.name)])
      (.object [(typeKey, .string Leaf.number.name), (itemsKey, .null)]) :=
    @Json.Edit.besideLeaf _ _ .number rfl rfl
  rw [← hread]
  exact ofDescription_eq_of_edits 2
    (((Relation.ReflTransGen.single (inside named)).tail (inside beside)).tail (@Json.Edit.object [] _ rfl))

end Shape

end ShapedJson
