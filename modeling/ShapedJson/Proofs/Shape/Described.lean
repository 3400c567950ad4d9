import ShapedJson.Proofs.Shape.Reordering

/-!
# What descriptions describe

The rule by which a description names or implies a kind, and the relation between descriptions and
shapes that follows from it.  A description is read as just the shape that it describes, when no
part of the shape lies too deep.  The shapes that can be described are those in which the key of
the type is no field.
-/

namespace ShapedJson

/-! ## Kinds -/

theorem Leaf.ofName?_eq_some_iff {t : Text} {kind : Leaf} :
    Leaf.ofName? t = some kind ↔ t = kind.name := by
  constructor
  · intro h
    unfold ofName? at h
    split at h
    · rename_i ht
      cases h
      exact ht
    · split at h
      · rename_i ht
        cases h
        exact ht
      · split at h
        · rename_i ht
          cases h
          exact ht
        · cases h
  · rintro rfl
    cases kind <;> decide

/-- A kind is named by its name and by nothing else. -/
theorem Kind.ofJson?_eq_some_iff {v : Json} {kind : Kind} :
    Kind.ofJson? v = some kind ↔ v = .string kind.name := by
  constructor
  · intro h
    cases v with
    | string s =>
        rw [ofJson?] at h
        split at h
        · rename_i hs
          cases h
          rw [hs]
        · split at h
          · rename_i hs
            cases h
            rw [hs]
          · obtain ⟨leaf, hleaf, rfl⟩ := Option.map_eq_some_iff.1 h
            rw [Leaf.ofName?_eq_some_iff.1 hleaf, name]
    | null | bool | number | array | object => cases h
  · rintro rfl
    cases kind with
    | leaf kind => cases kind <;> decide
    | array | object => decide

/-- The kind that a mapping names under the key of the type, or else the one that a description is
an example of.  Null is an example of no kind. -/
inductive Json.HasKind : Json → Kind → Prop
  | named {fields : List (Text × Json)} {kind : Kind}
      (type : fields.lookup typeKey = some (.string kind.name)) : HasKind (.object fields) kind
  | object {fields : List (Text × Json)} (untyped : fields.lookup typeKey = none) :
      HasKind (.object fields) .object
  | array (items : List Json) : HasKind (.array items) .array
  | string (s : Text) : HasKind (.string s) (.leaf .string)
  | boolean (b : Bool) : HasKind (.bool b) (.leaf .boolean)
  | number (n : Number) : HasKind (.number n) (.leaf .number)

/-- The kind that is looked up for a description is the one that it has. -/
theorem Json.hasKind_iff {raw : Json} {kind : Kind} :
    raw.HasKind kind ↔ Kind.ofJson? raw.describedKind = some kind := by
  constructor
  · intro h
    rw [Kind.ofJson?_eq_some_iff]
    cases h with
    | named type => rw [describedKind, type, Option.getD_some]
    | object untyped => rw [describedKind, untyped, Option.getD_none]
    | array | string | boolean | number => rfl
  · intro h
    cases raw with
    | object fields =>
        rw [Kind.ofJson?_eq_some_iff, describedKind] at h
        cases htype : fields.lookup typeKey with
        | none =>
            rw [htype, Option.getD_none, ← Kind.ofJson?_eq_some_iff] at h
            obtain rfl : Kind.object = kind := Option.some.inj h
            exact .object htype
        | some v =>
            rw [htype, Option.getD_some] at h
            exact .named (htype.trans (congrArg some h))
    | array items =>
        obtain rfl : Kind.array = kind := Option.some.inj h
        exact .array items
    | string t =>
        obtain rfl : Kind.leaf .string = kind := Option.some.inj h
        exact .string t
    | bool b =>
        obtain rfl : Kind.leaf .boolean = kind := Option.some.inj h
        exact .boolean b
    | number n =>
        obtain rfl : Kind.leaf .number = kind := Option.some.inj h
        exact .number n
    | null => cases h

/-- A description has one kind only. -/
theorem Json.HasKind.unique {raw : Json} {kind kind' : Kind} (h : raw.HasKind kind)
    (h' : raw.HasKind kind') : kind = kind' := by
  rw [hasKind_iff] at h h'
  exact Option.some.inj (h.symm.trans h')

namespace Shape

/-! ## Descriptions and their shapes -/

mutual

/-- The description describes the shape. -/
inductive Describes : Json → Shape → Prop
  | leaf {raw : Json} {leaf : Leaf} (kind : raw.HasKind (.leaf leaf)) : Describes raw (.leaf leaf)
  | array {fields : List (Text × Json)} {raw : Json} {item : Shape}
      (kind : (Json.object fields).HasKind .array) (items : fields.lookup itemsKey = some raw)
      (inside : Describes raw item) : Describes (.object fields) (.array item)
  | object {fields : List (Text × Json)} {described : List (Text × Shape)}
      (kind : (Json.object fields).HasKind .object) (inside : DescribesFields fields described) :
      Describes (.object fields) (.object described)

/-- The fields describe those of the shape in their order; the key of the type is none of them. -/
inductive DescribesFields : List (Text × Json) → List (Text × Shape) → Prop
  | nil : DescribesFields [] []
  | type {v : Json} {rest : List (Text × Json)} {described : List (Text × Shape)}
      (others : DescribesFields rest described) : DescribesFields ((typeKey, v) :: rest) described
  | field {k : Text} {v : Json} {s : Shape} {rest : List (Text × Json)}
      {described : List (Text × Shape)} (name : k ≠ typeKey) (value : Describes v s)
      (others : DescribesFields rest described) :
      DescribesFields ((k, v) :: rest) ((k, s) :: described)

end

/-- The parts of a shape, each with the number of steps to it from the whole. -/
inductive HasPart : Shape → Nat → Shape → Prop
  | whole (s : Shape) : HasPart s 0 s
  | item {item s : Shape} {n : Nat} (inside : HasPart item n s) : HasPart (.array item) (n + 1) s
  | field {fields : List (Text × Shape)} {f : Text × Shape} {s : Shape} {n : Nat}
      (mem : f ∈ fields) (inside : HasPart f.2 n s) : HasPart (.object fields) (n + 1) s

theorem depthOfFields_le_iff {fields : List (Text × Shape)} {n : Nat} :
    depthOfFields fields ≤ n ↔ ∀ f ∈ fields, f.2.depth + 1 ≤ n := by
  induction fields with
  | nil => simp [depthOfFields]
  | cons f rest ih =>
      obtain ⟨k, s⟩ := f
      rw [depthOfFields, Nat.max_le, ih, List.forall_mem_cons]

/-- No part of a shape lies deeper than the depth of the shape. -/
theorem HasPart.le_depth {s t : Shape} {n : Nat} (h : s.HasPart n t) : n ≤ s.depth := by
  induction h with
  | whole s => exact Nat.zero_le _
  | item inside ih =>
      rw [depth]
      omega
  | field mem inside ih =>
      rw [depth]
      have := depthOfFields_le_iff.1 (Nat.le_refl _) _ mem
      omega

/-- Some part of a shape lies as deep as the depth of the shape. -/
theorem exists_hasPart_depth (s : Shape) : ∃ t, s.HasPart s.depth t := by
  induction s with
  | leaf kind => exact ⟨_, .whole _⟩
  | array item ih =>
      obtain ⟨t, ht⟩ := ih
      exact ⟨t, .item ht⟩
  | object fields ih =>
      rw [depth]
      cases hdepth : depthOfFields fields with
      | zero => exact ⟨_, .whole _⟩
      | succ n =>
          -- not all fields are less deep than the deepest
          have hnot : ¬ ∀ f ∈ fields, f.2.depth + 1 ≤ n := by
            rw [← depthOfFields_le_iff]
            omega
          simp only [not_forall] at hnot
          obtain ⟨f, hf, hge⟩ := hnot
          have hle := depthOfFields_le_iff.1 (Nat.le_of_eq hdepth) f hf
          obtain rfl : f.2.depth = n := by omega
          obtain ⟨t, ht⟩ := ih f hf
          exact ⟨t, .field hf ht⟩

/-- A shape is within a depth when each of its parts is. -/
theorem depth_le_iff {s : Shape} {room : Int} :
    (s.depth : Int) ≤ room ↔ ∀ n t, s.HasPart n t → (n : Int) ≤ room := by
  constructor
  · intro h n t hpart
    have := hpart.le_depth
    omega
  · intro h
    obtain ⟨t, ht⟩ := exists_hasPart_depth s
    exact h _ t ht

theorem depth_array_le_iff {item : Shape} {room : Int} :
    ((Shape.array item).depth : Int) ≤ room ↔ (item.depth : Int) ≤ room - 1 := by
  rw [depth]
  omega

theorem depth_object_le_iff {fields : List (Text × Shape)} {room : Int} (h : 0 ≤ room) :
    ((Shape.object fields).depth : Int) ≤ room ↔ ∀ f ∈ fields, (f.2.depth : Int) ≤ room - 1 := by
  obtain ⟨n, rfl⟩ := Int.eq_ofNat_of_zero_le h
  rw [depth, Int.ofNat_le, depthOfFields_le_iff]
  constructor
  · intro h f hf
    have := h f hf
    omega
  · intro h f hf
    have := h f hf
    omega

/-! ## Reading descriptions -/

section

variable {fields : List (Text × Json)} {s : Shape}

theorem describes_iff_of_leaf {raw : Json} {leaf : Leaf} (h : raw.HasKind (.leaf leaf)) :
    Describes raw s ↔ s = .leaf leaf := by
  constructor
  · intro hs
    cases hs with
    | leaf kind =>
        cases h.unique kind
        rfl
    | array kind => cases h.unique kind
    | object kind => cases h.unique kind
  · rintro rfl
    exact .leaf h

theorem describes_iff_of_array (h : (Json.object fields).HasKind .array) :
    Describes (.object fields) s ↔
      ∃ raw item, fields.lookup itemsKey = some raw ∧ Describes raw item ∧ s = .array item := by
  constructor
  · intro hs
    cases hs with
    | leaf kind => cases h.unique kind
    | array kind items inside => exact ⟨_, _, items, inside, rfl⟩
    | object kind => cases h.unique kind
  · rintro ⟨raw, item, items, inside, rfl⟩
    exact .array h items inside

theorem describes_iff_of_object (h : (Json.object fields).HasKind .object) :
    Describes (.object fields) s ↔
      ∃ described, DescribesFields fields described ∧ s = .object described := by
  constructor
  · intro hs
    cases hs with
    | leaf kind => cases h.unique kind
    | array kind => cases h.unique kind
    | object kind inside => exact ⟨_, inside, rfl⟩
  · rintro ⟨described, inside, rfl⟩
    exact .object h inside

theorem describesFields_type_iff {v : Json} {described : List (Text × Shape)} :
    DescribesFields ((typeKey, v) :: fields) described ↔ DescribesFields fields described := by
  refine ⟨fun h => ?_, .type⟩
  cases h with
  | type others => exact others
  | field name => exact absurd rfl name

theorem describesFields_field_iff {k : Text} {v : Json} {described : List (Text × Shape)}
    (hk : k ≠ typeKey) :
    DescribesFields ((k, v) :: fields) described ↔
      ∃ s others, Describes v s ∧ DescribesFields fields others ∧ described = (k, s) :: others := by
  constructor
  · intro h
    cases h with
    | type others => exact absurd rfl hk
    | field name value others => exact ⟨_, _, value, others, rfl⟩
  · rintro ⟨s, others, value, inside, rfl⟩
    exact .field hk value inside

end

/-- Fields are read as those that they describe, when no part of these lies too deep. -/
theorem describeFields_eq_ok_iff {fields : List (Text × Json)} {room : Int}
    (h : ∀ f ∈ fields, ∀ s, describe room f.2 = .ok s ↔ Describes f.2 s ∧ (s.depth : Int) ≤ room)
    {described : List (Text × Shape)} :
    describeFields room fields = .ok described ↔
      DescribesFields fields described ∧ ∀ f ∈ described, (f.2.depth : Int) ≤ room := by
  induction fields generalizing described with
  | nil =>
      constructor
      · intro hs
        cases hs
        exact ⟨.nil, by simp⟩
      · rintro ⟨hs, -⟩
        cases hs
        rfl
  | cons f rest ih =>
      obtain ⟨k, v⟩ := f
      have ih := @ih fun f hf => h f (List.mem_cons_of_mem _ hf)
      by_cases hk : k = typeKey
      · subst hk
        rw [describeFields, if_pos rfl, ih, describesFields_type_iff]
      · have hv := h (k, v) (by simp)
        simp only [describeFields_cons_eq_ok_iff hk, describesFields_field_iff hk, hv, ih]
        constructor
        · rintro ⟨s, others, ⟨hs, hdepth⟩, ⟨hothers, hdepths⟩, rfl⟩
          exact ⟨⟨s, others, hs, hothers, rfl⟩, List.forall_mem_cons.2 ⟨hdepth, hdepths⟩⟩
        · rintro ⟨⟨s, others, hs, hothers, rfl⟩, hall⟩
          obtain ⟨hdepth, hdepths⟩ := List.forall_mem_cons.1 hall
          exact ⟨s, others, ⟨hs, hdepth⟩, ⟨hothers, hdepths⟩, rfl⟩

/-- An example of a leaf is read as the leaf, unless it lies too deep itself. -/
theorem describe_example_iff {raw : Json} {leaf : Leaf} (h : raw.HasKind (.leaf leaf)) {room : Int}
    {s : Shape} :
    (if room < 0 then Except.error (DescriptionError.here .tooDeep) else .ok (.leaf leaf)) = .ok s ↔
      Describes raw s ∧ (s.depth : Int) ≤ room := by
  rw [describes_iff_of_leaf h]
  split
  · refine iff_of_false nofun ?_
    rintro ⟨-, hdepth⟩
    omega
  · constructor
    · intro hs
      cases hs
      refine ⟨rfl, ?_⟩
      rw [depth]
      omega
    · rintro ⟨rfl, -⟩
      rfl

/-- A mapping is read by its kind, when what stands under its keys is read from one step further
in. -/
theorem describe_object_eq_ok_iff {fields : List (Text × Json)} {room : Int}
    (h : ∀ f ∈ fields, ∀ s,
      describe (room - 1) f.2 = .ok s ↔ Describes f.2 s ∧ (s.depth : Int) ≤ room - 1)
    {s : Shape} :
    describe room (.object fields) = .ok s ↔
      Describes (.object fields) s ∧ (s.depth : Int) ≤ room := by
  rw [describe]
  split
  · refine iff_of_false (by rintro ⟨⟩) ?_
    rintro ⟨-, hdepth⟩
    omega
  · rename_i hdeep
    have hroom : 0 ≤ room := by omega
    split
    · rename_i hkind
      have hnone : ∀ kind, ¬ (Json.object fields).HasKind kind := by
        intro kind hkind'
        rw [Json.hasKind_iff, hkind] at hkind'
        cases hkind'
      refine iff_of_false (by rintro ⟨⟩) ?_
      rintro ⟨hs, -⟩
      cases hs with
      | leaf kind | array kind | object kind => exact hnone _ kind
    · rename_i leaf hkind
      have hexample := @describe_example_iff _ leaf (Json.hasKind_iff.2 hkind) room s
      rwa [if_neg hdeep] at hexample
    · rename_i hkind
      rw [describes_iff_of_array (Json.hasKind_iff.2 hkind), Results.map_eq_ok_iff]
      simp only [describeItems_eq_ok_iff]
      constructor
      · rintro ⟨item, ⟨raw, hraw, hitem⟩, rfl⟩
        obtain ⟨inside, hdepth⟩ := (h _ (Fields.mem_of_lookup_eq_some hraw) _).1 hitem
        exact ⟨⟨raw, item, hraw, inside, rfl⟩, depth_array_le_iff.2 hdepth⟩
      · rintro ⟨⟨raw, item, hraw, inside, rfl⟩, hdepth⟩
        have hitem := (h _ (Fields.mem_of_lookup_eq_some hraw) _).2
          ⟨inside, depth_array_le_iff.1 hdepth⟩
        exact ⟨item, ⟨raw, hraw, hitem⟩, rfl⟩
    · rename_i hkind
      rw [describes_iff_of_object (Json.hasKind_iff.2 hkind), Results.map_eq_ok_iff]
      simp only [describeFields_eq_ok_iff h]
      constructor
      · rintro ⟨described, ⟨inside, hdepth⟩, rfl⟩
        exact ⟨⟨described, inside, rfl⟩, (depth_object_le_iff hroom).2 hdepth⟩
      · rintro ⟨⟨described, inside, rfl⟩, hdepth⟩
        exact ⟨described, ⟨inside, (depth_object_le_iff hroom).1 hdepth⟩, rfl⟩

/-- A description is read as the shape that it describes, when no part of that lies too deep. -/
theorem describe_eq_ok_iff (raw : Json) :
    ∀ room s, describe room raw = .ok s ↔ Describes raw s ∧ (s.depth : Int) ≤ room := by
  induction raw with
  | bool b =>
      intro room s
      rw [describe]
      exact describe_example_iff (.boolean b)
  | number n =>
      intro room s
      rw [describe]
      exact describe_example_iff (.number n)
  | string t =>
      intro room s
      rw [describe]
      exact describe_example_iff (.string t)
  | null | array items =>
      -- null has no kind, and a list has no description of its items
      intro room s
      rw [describe]
      refine iff_of_false (fun h => by split at h <;> cases h) ?_
      rintro ⟨hs, -⟩
      cases hs with
      | leaf kind => cases kind
  | object fields ih =>
      exact fun room s => describe_object_eq_ok_iff fun f hf => ih f hf (room - 1)

/-! ## The shapes that are described -/

/-- The fields that are described have other names than the key of the type, and each shape among
them is described by some value. -/
theorem DescribesFields.untyped {fields : List (Text × Json)} {described : List (Text × Shape)}
    (h : DescribesFields fields described) :
    typeKey ∉ Fields.names described ∧ ∀ f ∈ described, ∃ v, Describes v f.2 := by
  induction fields generalizing described with
  | nil =>
      cases h
      exact ⟨List.not_mem_nil, nofun⟩
  | cons f rest ih =>
      cases h with
      | type others => exact ih others
      | field name value others =>
          obtain ⟨hrest, hshapes⟩ := ih others
          refine ⟨fun hmem => ?_, List.forall_mem_cons.2 ⟨⟨_, value⟩, hshapes⟩⟩
          rcases List.mem_cons.1 hmem with heq | hmem
          · exact name heq.symm
          · exact hrest hmem

/-- No object of a shape that is described has a field under the key of the type. -/
theorem Describes.untyped {raw : Json} {s : Shape} (h : Describes raw s) :
    s.EveryObject (typeKey ∉ ·) := by
  induction s generalizing raw with
  | leaf kind => exact .leaf kind
  | array item ih =>
      cases h with
      | array kind items inside => exact .array item (ih inside)
  | object fields ih =>
      cases h with
      | object kind inside =>
          obtain ⟨hnames, hshapes⟩ := inside.untyped
          refine .object fields hnames fun f hf => ?_
          obtain ⟨v, hv⟩ := hshapes f hf
          exact ih f hf hv

mutual

/-- A description of a shape.  Leaves and arrays name their kinds, and objects imply theirs. -/
def description : Shape → Json
  | .leaf kind => .object [(typeKey, .string kind.name)]
  | .array item => .object [(typeKey, .string Kind.array.name), (itemsKey, description item)]
  | .object fields => .object (descriptionOfFields fields)

/-- The descriptions of fields under their names. -/
def descriptionOfFields : List (Text × Shape) → List (Text × Json)
  | [] => []
  | (k, s) :: rest => (k, description s) :: descriptionOfFields rest

end

theorem names_descriptionOfFields (fields : List (Text × Shape)) :
    Fields.names (descriptionOfFields fields) = Fields.names fields := by
  induction fields with
  | nil => rfl
  | cons f rest ih => exact congrArg (f.1 :: ·) ih

theorem describesFields_descriptionOfFields {fields : List (Text × Shape)}
    (hnames : typeKey ∉ Fields.names fields) (h : ∀ f ∈ fields, Describes f.2.description f.2) :
    DescribesFields (descriptionOfFields fields) fields := by
  induction fields with
  | nil => exact .nil
  | cons f rest ih =>
      obtain ⟨k, s⟩ := f
      obtain ⟨hk, hrest⟩ : typeKey ≠ k ∧ typeKey ∉ Fields.names rest := by
        simpa [Fields.names] using hnames
      exact .field hk.symm (h (k, s) (by simp)) (ih hrest fun f hf => h f (List.mem_cons_of_mem _ hf))

/-- The description of a shape describes it, when the key of the type is no field. -/
theorem describes_description {s : Shape} (h : s.EveryObject (typeKey ∉ ·)) :
    Describes s.description s := by
  induction s with
  | leaf kind => exact .leaf (.named rfl)
  | array item ih => exact .array (.named rfl) rfl (ih (everyObject_array.1 h))
  | object fields ih =>
      rw [everyObject_object] at h
      refine .object (.object ?_) (describesFields_descriptionOfFields h.1 fun f hf => ih f hf (h.2 f hf))
      rw [Fields.lookup_eq_none_iff, names_descriptionOfFields]
      exact h.1

theorem distinct_descriptionOfFields {fields : List (Text × Shape)}
    (h : ∀ f ∈ fields, f.2.description.Distinct) :
    ∀ f ∈ descriptionOfFields fields, f.2.Distinct := by
  induction fields with
  | nil => exact nofun
  | cons f rest ih =>
      rw [descriptionOfFields, List.forall_mem_cons]
      exact ⟨h f (by simp), ih fun g hg => h g (List.mem_cons_of_mem _ hg)⟩

theorem distinct_description {s : Shape} (h : s.Distinct) : s.description.Distinct := by
  unfold Distinct at h
  induction s with
  | leaf kind =>
      have hnames : (Fields.names [(typeKey, ())]).Nodup := by decide
      exact .object _ hnames (by simp)
  | array item ih =>
      have hnames : (Fields.names [(typeKey, ()), (itemsKey, ())]).Nodup := by decide
      have hitem : item.description.Every _ := ih (everyObject_array.1 h)
      exact .object _ hnames (by simp [hitem])
  | object fields ih =>
      rw [everyObject_object] at h
      refine .object _ ?_ (distinct_descriptionOfFields fun f hf => ih f hf (h.2 f hf))
      rw [names_descriptionOfFields]
      exact h.1

/-- A description is read as a shape exactly when it describes the shape and all parts of the shape
are within the limit.  The shapes that descriptions with distinct names are read as are all those
with distinct names that are within the limit and have no field under the key of the type. -/
theorem ofDescription_eq_ok_iff_describes (limit : Int) :
    (∀ raw s, ofDescription limit raw = .ok s ↔
      Describes raw s ∧ ∀ n t, s.HasPart n t → (n : Int) ≤ limit) ∧
    ∀ s : Shape, (∃ raw : Json, raw.Distinct ∧ ofDescription limit raw = .ok s) ↔
      s.Distinct ∧ s.EveryObject (typeKey ∉ ·) ∧ (s.depth : Int) ≤ limit := by
  refine ⟨fun raw s => ?_, fun s => ⟨?_, ?_⟩⟩
  · rw [ofDescription, describe_eq_ok_iff, depth_le_iff]
  · rintro ⟨raw, hraw, hs⟩
    obtain ⟨hdescribes, hdepth⟩ := (describe_eq_ok_iff raw limit s).1 hs
    exact ⟨distinct_of_describe hraw hs, hdescribes.untyped, hdepth⟩
  · rintro ⟨hdistinct, huntyped, hdepth⟩
    exact ⟨s.description, distinct_description hdistinct,
      (describe_eq_ok_iff _ _ _).2 ⟨describes_description huntyped, hdepth⟩⟩

end Shape

end ShapedJson
