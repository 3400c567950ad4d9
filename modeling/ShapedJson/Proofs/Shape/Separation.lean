import ShapedJson.Proofs.Shape.Alike

/-!
# Values that separate shapes

Every shape describes a value.  Of two shapes that are not alike one describes a value that the
other one does not: another kind of leaf, an object without one of the fields, or a value that
separates what the two have at the same place, inside of arrays and objects that both describe.
-/

namespace ShapedJson.Shape

variable {a b s g : Shape} {fs gs fields : List (Text × Shape)} {name : Text} {v : Json}

mutual

/-- A value that a shape describes: null, or an object of such values. -/
def sample : Shape → Json
  | .leaf _ => .null
  | .array _ => .null
  | .object fields => .object (sampleFields fields)

/-- A value that the shape describes under each of the names. -/
def sampleFields : List (Text × Shape) → List (Text × Json)
  | [] => []
  | (k, s) :: rest => (k, sample s) :: sampleFields rest

end

theorem names_sampleFields (fields : List (Text × Shape)) :
    Fields.names (sampleFields fields) = Fields.names fields := by
  induction fields with
  | nil => rfl
  | cons f rest ih => exact congrArg (f.1 :: ·) ih

theorem lookup_sampleFields (name : Text) (fields : List (Text × Shape)) :
    (sampleFields fields).lookup name = (fields.lookup name).map sample := by
  induction fields with
  | nil => rfl
  | cons f rest ih =>
      rw [sampleFields, List.lookup_cons, List.lookup_cons, ih]
      cases name == f.1 <;> rfl

theorem conforms_sample (h : s.Distinct) : s.Conforms s.sample := by
  unfold Distinct at h
  induction s with
  | leaf kind => exact .nullLeaf kind
  | array item => exact .nullArray item
  | object fields ih =>
      rw [everyObject_object] at h
      rw [sample, conforms_object_iff h.1]
      intro name s hs
      have hmem := Fields.mem_of_lookup_eq_some hs
      exact ⟨s.sample, by rw [lookup_sampleFields, hs]; rfl, ih _ hmem (h.2 _ hmem)⟩

theorem distinct_sample (h : s.Distinct) : s.sample.Distinct := by
  unfold Distinct at h
  unfold Json.Distinct
  induction s with
  | leaf kind => exact .null
  | array item => exact .null
  | object fields ih =>
      rw [everyObject_object] at h
      rw [sample, Json.every_object, names_sampleFields]
      refine ⟨h.1, fun f hf => ?_⟩
      have hlookup := Fields.lookup_of_mem ((names_sampleFields fields).symm ▸ h.1) hf
      rw [lookup_sampleFields, Option.map_eq_some_iff] at hlookup
      obtain ⟨s, hs, hf⟩ := hlookup
      have hmem := Fields.mem_of_lookup_eq_some hs
      rw [← hf]
      exact ih _ hmem (h.2 _ hmem)

/-- A value that the first shape describes and the second one does not. -/
structure Separates (v : Json) (a b : Shape) : Prop where
  distinct : v.Distinct
  conforms : a.Conforms v
  violates : ¬ b.Conforms v

theorem separates_null_leaf (kind : Leaf) (gs : List (Text × Shape)) :
    Separates .null (.leaf kind) (.object gs) :=
  ⟨.null, .nullLeaf kind, by rintro ⟨⟩⟩

theorem separates_null_array (item : Shape) (gs : List (Text × Shape)) :
    Separates .null (.array item) (.object gs) :=
  ⟨.null, .nullArray item, by rintro ⟨⟩⟩

theorem separates_emptyArray (item : Shape) (kind : Leaf) :
    Separates (.array []) (.array item) (.leaf kind) :=
  ⟨.array _ (by simp), .array _ _ (by simp), by rintro ⟨⟩⟩

theorem exists_separates_leaf {kind kind' : Leaf} (h : kind ≠ kind') :
    ∃ v, Separates v (.leaf kind) (.leaf kind') := by
  cases kind with
  | string => exact ⟨.string [], .string _ trivial, .string [], fun hv => by cases hv; exact h rfl⟩
  | number => exact ⟨.number (.whole 0), .number _ trivial, .whole 0, fun hv => by cases hv; exact h rfl⟩
  | boolean => exact ⟨.bool true, .bool _, .boolean true, fun hv => by cases hv; exact h rfl⟩

theorem Separates.array (h : Separates v a b) : Separates (.array [v]) (.array a) (.array b) := by
  refine ⟨.array _ fun w hw => ?_, .array _ _ fun w hw => ?_, fun hv => ?_⟩
  · rw [List.mem_singleton.1 hw]
    exact h.distinct
  · rw [List.mem_singleton.1 hw]
    exact h.conforms
  · cases hv with
    | array _ _ each => exact h.violates (each v (by simp))

/-- An object without a field of the second shape separates it from one that does not have it. -/
theorem separates_sample (hfs : (Shape.object fs).Distinct) (hs : fs.lookup name = none)
    (hgs : (Fields.names gs).Nodup) (hg : gs.lookup name = some g) :
    Separates (Shape.object fs).sample (.object fs) (.object gs) := by
  refine ⟨distinct_sample hfs, conforms_sample hfs, fun hv => ?_⟩
  rw [sample, conforms_object_iff hgs] at hv
  obtain ⟨v, hv, -⟩ := hv name g hg
  rw [lookup_sampleFields, hs] at hv
  cases hv

/-- A value that separates the shapes under one name separates the objects as part of an object. -/
theorem Separates.field (h : Separates v s g) (hfs : (Shape.object fs).Distinct)
    (hs : fs.lookup name = some s) (hgs : (Fields.names gs).Nodup) (hg : gs.lookup name = some g) :
    Separates (.object (Fields.put name v (sampleFields fs))) (.object fs) (.object gs) := by
  have hmem : name ∈ Fields.names (sampleFields fs) := by
    rw [names_sampleFields]
    exact Fields.mem_names_iff.2 ⟨s, hs⟩
  have hsample := distinct_sample hfs
  have hinside := hfs
  unfold Distinct at hinside
  rw [sample, Json.Distinct, Json.every_object] at hsample
  rw [everyObject_object] at hinside
  refine ⟨?_, ?_, fun hv => ?_⟩
  · rw [Json.Distinct, Json.every_object, Fields.names_put_of_mem hmem]
    refine ⟨hsample.1, fun f hf => ?_⟩
    rcases Fields.mem_of_mem_put hf with rfl | hf
    · exact h.distinct
    · exact hsample.2 f hf
  · rw [conforms_object_iff hinside.1]
    intro other t ht
    by_cases hother : other = name
    · rw [hother, hs] at ht
      obtain rfl := Option.some.inj ht
      exact ⟨v, by rw [hother, Fields.lookup_put_self], h.conforms⟩
    · refine ⟨t.sample, ?_, conforms_sample (hinside.2 _ (Fields.mem_of_lookup_eq_some ht))⟩
      rw [Fields.lookup_put_of_ne hother, lookup_sampleFields, ht]
      rfl
  · rw [conforms_object_iff hgs] at hv
    obtain ⟨w, hw, hconforms⟩ := hv name g hg
    rw [Fields.lookup_put_self] at hw
    obtain rfl := Option.some.inj hw
    exact h.violates hconforms

/-- Shapes that are not alike are separated by some value, one way or the other. -/
theorem exists_separates (ha : a.Distinct) (hb : b.Distinct) (h : a.alike b = false) :
    ∃ v, Separates v a b ∨ Separates v b a := by
  unfold Distinct at ha hb
  induction a generalizing b with
  | leaf kind =>
      cases b with
      | leaf kind' =>
          have hne : kind ≠ kind' := by simpa [alike] using h
          obtain ⟨v, hv⟩ := exists_separates_leaf hne
          exact ⟨v, .inl hv⟩
      | array item' =>
          exact ⟨.array [], .inr (separates_emptyArray item' kind)⟩
      | object gs => exact ⟨.null, .inl (separates_null_leaf kind gs)⟩
  | array item ih =>
      cases b with
      | leaf kind' => exact ⟨.array [], .inl (separates_emptyArray item kind')⟩
      | array item' =>
          rw [everyObject_array] at ha hb
          rw [alike] at h
          obtain ⟨v, hv⟩ := ih ha hb h
          exact ⟨.array [v], hv.imp Separates.array Separates.array⟩
      | object gs => exact ⟨.null, .inl (separates_null_array item gs)⟩
  | object fs ih =>
      cases b with
      | leaf kind' => exact ⟨.null, .inr (separates_null_leaf kind' fs)⟩
      | array item' => exact ⟨.null, .inr (separates_null_array item' fs)⟩
      | object gs =>
          have hfs := everyObject_object.1 ha
          have hgs := everyObject_object.1 hb
          have hnot : ¬ Fields.Rearranges (fun s g => s.alike g = true) fs gs := fun hrearranges =>
            Bool.false_ne_true (h.symm.trans ((alike_object_iff hfs.1).2 hrearranges))
          rcases Fields.exists_of_not_rearranges hfs.1 hgs.1 hnot with
            ⟨name, g, hs, hg⟩ | ⟨name, s, hs, hg⟩ | ⟨name, s, g, hs, hg, hfield⟩
          · exact ⟨_, .inl (separates_sample ha hs hgs.1 hg)⟩
          · exact ⟨_, .inr (separates_sample hb hg hfs.1 hs)⟩
          · have hmem := Fields.mem_of_lookup_eq_some hs
            obtain ⟨v, hv | hv⟩ := ih _ hmem (hfs.2 _ hmem)
              (hgs.2 _ (Fields.mem_of_lookup_eq_some hg)) (eq_false_of_ne_true hfield)
            · exact ⟨_, .inl (hv.field ha hs hgs.1 hg)⟩
            · exact ⟨_, .inr (hv.field hb hg hfs.1 hs)⟩

end ShapedJson.Shape
