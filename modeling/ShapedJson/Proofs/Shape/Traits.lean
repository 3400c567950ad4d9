import ShapedJson.Proofs.Fields
import ShapedJson.Proofs.Json.Traits
import ShapedJson.Proofs.Results
import ShapedJson.Proofs.Shape.Conformance
import ShapedJson.Proofs.Shape.Names
import ShapedJson.Shape.Description

/-!
# What passes to shapes and projections

A property of the names of objects passes from a description to its shape, and one of all parts of
a value passes to what a shape leaves of it.  What is left is finite and no deeper than the value.
-/

namespace ShapedJson.Shape

open Json (Every Traits)

variable {p : Traits}

/-! ## From descriptions to shapes -/

/-- Whether a property of names passes to some of the names, in their order. -/
def SublistClosed (names : List Text → Prop) : Prop :=
  ∀ ns ms, ns.Sublist ms → names ms → names ns

theorem sublistClosed_encodable : SublistClosed fun names => ∀ name ∈ names, name.Encodable :=
  fun _ _ hsublist hnames name hname => hnames name (hsublist.subset hname)

theorem describeItems_sound {q : Shape → Prop} {fields : List (Text × Json)}
    (h : ∀ f ∈ fields, ∀ room s, describe room f.2 = .ok s → q s) {room : Int} {s : Shape}
    (hs : describeItems room fields = .ok s) : q s := by
  induction fields with
  | nil => cases hs
  | cons f rest ih =>
      obtain ⟨k, v⟩ := f
      rw [describeItems] at hs
      split at hs
      · exact h (k, v) (by simp) room s (Results.mapError_eq_ok_iff.1 hs)
      · exact ih (fun g hg => h g (List.mem_cons_of_mem _ hg)) hs

/-- The fields of a shape are some of those described, in their order. -/
theorem describeFields_sound {q : Shape → Prop} {fields : List (Text × Json)}
    (h : ∀ f ∈ fields, ∀ room s, describe room f.2 = .ok s → q s) {room : Int}
    {described : List (Text × Shape)} (hs : describeFields room fields = .ok described) :
    (Fields.names described).Sublist (Fields.names fields) ∧ ∀ f ∈ described, q f.2 := by
  induction fields generalizing described with
  | nil =>
      cases hs
      exact ⟨List.Sublist.slnil, by simp⟩
  | cons f rest ih =>
      obtain ⟨k, v⟩ := f
      have ih := fun {ds : List (Text × Shape)} (hds : describeFields room rest = .ok ds) =>
        ih (fun g hg => h g (List.mem_cons_of_mem _ hg)) hds
      rw [describeFields] at hs
      split at hs
      · obtain ⟨hnames, hq⟩ := ih hs
        exact ⟨hnames.cons _, hq⟩
      · obtain ⟨s, hfirst, hrest⟩ := Results.bind_eq_ok_iff.1 hs
        obtain ⟨others, hothers, heq⟩ := Results.bind_eq_ok_iff.1 hrest
        cases heq
        obtain ⟨hnames, hq⟩ := ih hothers
        refine ⟨hnames.cons_cons _, fun g hg => ?_⟩
        rcases List.mem_cons.1 hg with rfl | hg
        · exact h (k, v) (by simp) room s (Results.mapError_eq_ok_iff.1 hfirst)
        · exact hq g hg

theorem everyObject_of_describe (hclosed : SublistClosed p.names) {raw : Json} (h : raw.Every p) :
    ∀ room s, describe room raw = .ok s → s.EveryObject p.names := by
  induction raw with
  | null | bool b | number n | string s | array items =>
      intro room s hs
      rw [describe] at hs
      split at hs
      · cases hs
      · cases hs <;> exact .leaf _
  | object fields ih =>
      intro room s hs
      rw [Json.every_object] at h
      have hinside := fun f hf => ih f hf (h.2 f hf)
      rw [describe] at hs
      split at hs
      · cases hs
      · split at hs
        · cases hs
        · cases hs
          exact .leaf _
        · obtain ⟨item, hitem, rfl⟩ := Results.map_eq_ok_iff.1 hs
          exact .array _ (describeItems_sound hinside hitem)
        · obtain ⟨described, hdescribed, rfl⟩ := Results.map_eq_ok_iff.1 hs
          obtain ⟨hnames, hq⟩ := describeFields_sound hinside hdescribed
          exact .object _ (hclosed _ _ hnames h.1) hq

theorem distinct_of_describe {raw : Json} (h : raw.Distinct) {room : Int} {s : Shape}
    (hs : describe room raw = .ok s) : s.Distinct := by
  have hclosed : SublistClosed List.Nodup := fun _ _ hsublist hnodup => hnodup.sublist hsublist
  unfold Json.Distinct at h
  unfold Distinct
  exact everyObject_of_describe hclosed h room s hs

theorem encodable_of_describe {raw : Json} (h : raw.Encodable) {room : Int} {s : Shape}
    (hs : describe room raw = .ok s) : s.Encodable := by
  unfold Json.Encodable at h
  unfold Encodable
  exact everyObject_of_describe sublistClosed_encodable h room s hs

/-- What describes the items of an array is refused for a node below, or there is none. -/
theorem describeItems_error_cases {fields : List (Text × Json)} {room : Int} {e : DescriptionError}
    (he : describeItems room fields = .error e) :
    e = .here .missingItems ∨
      ∃ f ∈ fields, ∃ e', describe room f.2 = .error e' ∧ e'.under f.1 = e := by
  induction fields with
  | nil =>
      cases he
      exact .inl rfl
  | cons f rest ih =>
      obtain ⟨k, v⟩ := f
      rw [describeItems] at he
      split at he
      · obtain ⟨e', he', rfl⟩ := Results.mapError_eq_error_iff.1 he
        exact .inr ⟨(k, v), by simp, e', he', rfl⟩
      · obtain hmissing | ⟨f, hf, hbelow⟩ := ih he
        · exact .inl hmissing
        · exact .inr ⟨f, List.mem_cons_of_mem _ hf, hbelow⟩

/-- The fields of an object are refused for a node below. -/
theorem describeFields_error_cases {fields : List (Text × Json)} {room : Int} {e : DescriptionError}
    (he : describeFields room fields = .error e) :
    ∃ f ∈ fields, ∃ e', describe room f.2 = .error e' ∧ e'.under f.1 = e := by
  induction fields with
  | nil => cases he
  | cons f rest ih =>
      obtain ⟨k, v⟩ := f
      have hrest : describeFields room rest = .error e →
          ∃ f ∈ (k, v) :: rest, ∃ e', describe room f.2 = .error e' ∧ e'.under f.1 = e := by
        intro he
        obtain ⟨f, hf, hbelow⟩ := ih he
        exact ⟨f, List.mem_cons_of_mem _ hf, hbelow⟩
      rw [describeFields] at he
      split at he
      · exact hrest he
      · -- the defect is in the first field, or the first field is sound and it is in the rest
        rcases Results.bind_eq_error_iff.1 he with he | ⟨s, -, he⟩
        · obtain ⟨e', he', rfl⟩ := Results.mapError_eq_error_iff.1 he
          exact ⟨(k, v), by simp, e', he', rfl⟩
        · rcases Results.bind_eq_error_iff.1 he with he | ⟨others, -, he⟩
          · exact hrest he
          · cases he

theorem describe_of_neg {room : Int} (h : room < 0) (raw : Json) :
    describe room raw = .error (.here .tooDeep) := by
  cases raw <;> rw [describe, if_pos h]

/-- A description is refused for the node at hand, which is too deep only without room, or for a
node below it. -/
theorem describe_error_cases {raw : Json} {room : Int} {e : DescriptionError}
    (he : describe room raw = .error e) :
    (∃ defect, e = .here defect ∧ (defect = .tooDeep ↔ room < 0)) ∨
      0 ≤ room ∧ ∃ fields, raw = .object fields ∧
        ∃ f ∈ fields, ∃ e', describe (room - 1) f.2 = .error e' ∧ e'.under f.1 = e := by
  by_cases hroom : room < 0
  · cases (describe_of_neg hroom raw).symm.trans he
    exact .inl ⟨_, rfl, iff_of_true rfl hroom⟩
  · have hhere : ∀ {defect}, e = .here defect → defect ≠ .tooDeep →
        ∃ defect, e = .here defect ∧ (defect = .tooDeep ↔ room < 0) := fun h hdefect =>
      ⟨_, h, iff_of_false hdefect hroom⟩
    cases raw with
    | null | bool | number | string | array =>
        rw [describe, if_neg hroom] at he
        cases he <;> exact .inl (hhere rfl nofun)
    | object fields =>
        rw [describe, if_neg hroom] at he
        split at he
        · cases he
          exact .inl (hhere rfl nofun)
        · cases he
        · obtain rfl | hbelow := describeItems_error_cases (Results.map_eq_error_iff.1 he)
          · exact .inl (hhere rfl nofun)
          · exact .inr ⟨by omega, fields, rfl, hbelow⟩
        · exact .inr ⟨by omega, fields, rfl,
            describeFields_error_cases (Results.map_eq_error_iff.1 he)⟩

/-- The keys on the way to a defect are names of the description. -/
theorem encodable_path_of_describe {raw : Json} (h : raw.Encodable) :
    ∀ room e, describe room raw = .error e → ∀ key ∈ e.path, key.Encodable := by
  induction raw with
  | null | bool | number | string | array =>
      intro room e he
      obtain ⟨defect, rfl, -⟩ | ⟨-, fields, hraw, -⟩ := describe_error_cases he
      · exact nofun
      · cases hraw
  | object fields ih =>
      rw [Json.encodable_object] at h
      intro room e he
      obtain ⟨defect, rfl, -⟩ | ⟨-, fields, ⟨⟩, f, hf, e', he', rfl⟩ := describe_error_cases he
      · exact nofun
      · intro key hkey
        rcases List.mem_cons.1 hkey with rfl | hkey
        · exact (h f hf).1
        · exact ih f hf (h f hf).2 _ e' he' key hkey

/-! ## From values to projections -/

theorem mem_projectFields {fields : List (Text × Shape)} {given : List (Text × Json)}
    {g : Text × Json} (h : g ∈ projectFields fields given) :
    ∃ f ∈ fields, ∃ v, (f.1, v) ∈ given ∧ given.lookup f.1 = some v ∧ g = (f.1, f.2.project v) := by
  induction fields with
  | nil => cases h
  | cons f rest ih =>
      obtain ⟨k, s⟩ := f
      rw [projectFields] at h
      split at h
      · rename_i v hv
        rcases List.mem_cons.1 h with rfl | h
        · exact ⟨(k, s), by simp, v, Fields.mem_of_lookup_eq_some hv, hv, rfl⟩
        · obtain ⟨f, hf, hg⟩ := ih h
          exact ⟨f, List.mem_cons_of_mem _ hf, hg⟩
      · obtain ⟨f, hf, hg⟩ := ih h
        exact ⟨f, List.mem_cons_of_mem _ hf, hg⟩

/-- A projection has just the fields that its shape declares. -/
theorem names_projectFields {fields : List (Text × Shape)} {given : List (Text × Json)}
    (h : ∀ f ∈ fields, ∃ v, given.lookup f.1 = some v) :
    Fields.names (projectFields fields given) = Fields.names fields := by
  induction fields with
  | nil => rfl
  | cons f rest ih =>
      obtain ⟨k, s⟩ := f
      obtain ⟨v, hv⟩ := h (k, s) (by simp)
      have hrest := ih fun g hg => h g (List.mem_cons_of_mem _ hg)
      simp only [projectFields, hv]
      show k :: Fields.names (projectFields rest given) = k :: Fields.names rest
      rw [hrest]

/-- Properties of all parts of a value are properties of all parts of its projection. -/
theorem every_project {s : Shape} (hshape : s.EveryObject p.names) :
    ∀ v, s.Conforms v → v.Every p → (s.project v).Every p := by
  induction s with
  | leaf kind =>
      intro v _ hv
      rw [project]
      exact hv
  | array item ih =>
      intro v hconforms hv
      rw [everyObject_array] at hshape
      rw [project]
      cases hconforms with
      | nullArray => exact hv
      | array _ items each =>
          rw [Json.every_array] at hv ⊢
          intro w hw
          obtain ⟨u, hu, rfl⟩ := List.mem_map.1 hw
          exact ih hshape u (each u hu) (hv u hu)
  | object fields ih =>
      intro v hconforms hv
      rw [everyObject_object] at hshape
      rw [project]
      cases hconforms with
      | object _ given present each =>
          rw [Json.every_object] at hv ⊢
          -- the names come from the shape and the values from the value
          refine ⟨?_, fun g hg => ?_⟩
          · rw [names_projectFields present]
            exact hshape.1
          · obtain ⟨f, hf, w, hmem, hw, rfl⟩ := mem_projectFields hg
            exact ih f hf (hshape.2 f hf) w (each f hf w hw) (hv.2 _ hmem)

/-- The projection of a value that conforms has finite numbers only. -/
theorem isFinite_project {s : Shape} : ∀ v, s.Conforms v → (s.project v).isFinite = true := by
  induction s with
  | leaf kind =>
      intro v hconforms
      rw [project]
      cases hconforms with
      | real x finite => exact finite
      | nullLeaf | string | whole | boolean => rfl
  | array item ih =>
      intro v hconforms
      rw [project]
      cases hconforms with
      | nullArray => rfl
      | array _ items each =>
          rw [Json.isFinite, Json.isFiniteItems_eq_true_iff]
          intro w hw
          obtain ⟨u, hu, rfl⟩ := List.mem_map.1 hw
          exact ih u (each u hu)
  | object fields ih =>
      intro v hconforms
      rw [project]
      cases hconforms with
      | object _ given present each =>
          rw [Json.isFinite, Json.isFiniteFields_eq_true_iff]
          intro g hg
          obtain ⟨f, hf, w, -, hw, rfl⟩ := mem_projectFields hg
          exact ih f hf w (each f hf w hw)

/-- A projection is no higher than its value. -/
theorem height_project_le {s : Shape} : ∀ v, (s.project v).height ≤ v.height := by
  induction s with
  | leaf kind =>
      intro v
      rw [project]
  | array item ih =>
      intro v
      rw [project]
      cases v with
      | array items =>
          rw [Json.height, Json.height, Nat.add_le_add_iff_right, Json.heightOfItems_le_iff]
          intro w hw
          obtain ⟨u, hu, rfl⟩ := List.mem_map.1 hw
          exact Nat.le_trans (ih u) (Json.heightOfItems_le_iff.1 (Nat.le_refl _) u hu)
      | _ => exact Nat.le_refl _
  | object fields ih =>
      intro v
      rw [project]
      cases v with
      | object given =>
          rw [Json.height, Json.height, Nat.add_le_add_iff_right, Json.heightOfFields_le_iff]
          intro g hg
          obtain ⟨f, hf, w, hmem, -, rfl⟩ := mem_projectFields hg
          exact Nat.le_trans (ih f hf w) (Json.heightOfFields_le_iff.1 (Nat.le_refl _) _ hmem)
      | _ => exact Nat.le_refl _

end ShapedJson.Shape
