import ShapedJson.Proofs.Json.Rearranged
import ShapedJson.Proofs.Shape.Traits

/-!
# Shapes that are alike

Two shapes that differ only in the order of fields describe the same values, and what they leave of
a value differs only in the order of fields.
-/

namespace ShapedJson.Shape

variable {fs gs fields : List (Text × Shape)} {given : List (Text × Json)}

theorem alikeFields_eq_true_iff :
    alikeFields fs gs = true ↔ ∀ f ∈ fs, ∃ g, gs.lookup f.1 = some g ∧ f.2.alike g = true := by
  induction fs with
  | nil => simp [alikeFields]
  | cons f rest ih =>
      obtain ⟨k, s⟩ := f
      rw [alikeFields, Bool.and_eq_true, ih, List.forall_mem_cons]
      cases gs.lookup k <;> simp

/-- Objects are alike when their names are the same and the shapes under each name are alike. -/
theorem alike_object_iff (hfs : (Fields.names fs).Nodup) :
    alike (.object fs) (.object gs) = true ↔
      Fields.Rearranges (fun s g => s.alike g = true) fs gs := by
  rw [alike, Bool.and_eq_true, beq_iff_eq, alikeFields_eq_true_iff]
  constructor
  · rintro ⟨hlength, hfields⟩
    refine ⟨Fields.perm_of_subset hfs hlength fun name hname => ?_, fun name s g hs hg => ?_⟩
    · obtain ⟨s, hs⟩ := Fields.mem_names_iff.1 hname
      obtain ⟨g, hg, -⟩ := hfields _ (Fields.mem_of_lookup_eq_some hs)
      exact Fields.mem_names_iff.2 ⟨g, hg⟩
    · obtain ⟨g', hg', halike⟩ := hfields _ (Fields.mem_of_lookup_eq_some hs)
      obtain rfl := Option.some.inj (hg.symm.trans hg')
      exact halike
  · intro h
    refine ⟨by simpa [Fields.names] using h.names.length_eq, fun f hf => ?_⟩
    exact h.exists_right (Fields.lookup_of_mem hfs hf)

/-- What holds of names in any order passes to a shape that is alike. -/
theorem everyObject_of_alike {p : List Text → Prop}
    (hperm : ∀ ns ms, ns.Perm ms → p ns → p ms) {a b : Shape} (hdistinct : a.Distinct)
    (h : a.alike b = true) (ha : a.EveryObject p) : b.EveryObject p := by
  unfold Distinct at hdistinct
  induction a generalizing b with
  | leaf kind =>
      cases b with
      | leaf kind' => exact .leaf kind'
      | array | object => cases h
  | array item ih =>
      cases b with
      | array item' =>
          rw [everyObject_array] at hdistinct ha ⊢
          rw [alike] at h
          exact ih hdistinct h ha
      | leaf | object => cases h
  | object fs ih =>
      cases b with
      | object gs =>
          rw [everyObject_object] at hdistinct ha ⊢
          rw [alike_object_iff hdistinct.1] at h
          have hgs := h.names.nodup_iff.1 hdistinct.1
          refine ⟨hperm _ _ h.names ha.1, fun g hg => ?_⟩
          obtain ⟨s, hs, halike⟩ := h.exists_left (Fields.lookup_of_mem hgs hg)
          have hmem := Fields.mem_of_lookup_eq_some hs
          exact ih _ hmem (hdistinct.2 _ hmem) halike (ha.2 _ hmem)
      | leaf | array => cases h

theorem distinct_of_alike {a b : Shape} (ha : a.Distinct) (h : a.alike b = true) : b.Distinct :=
  everyObject_of_alike (fun _ _ hperm => hperm.nodup_iff.1) ha h ha

theorem encodable_of_alike {a b : Shape} (hdistinct : a.Distinct) (h : a.alike b = true)
    (ha : a.Encodable) : b.Encodable :=
  everyObject_of_alike (fun _ _ hperm hall name hname => hall name (hperm.mem_iff.2 hname))
    hdistinct h ha

/-- An object conforms when under each declared name there is a value that conforms. -/
theorem conforms_object_iff (hfields : (Fields.names fields).Nodup) :
    Conforms (.object fields) (.object given) ↔
      ∀ name s, fields.lookup name = some s → ∃ v, given.lookup name = some v ∧ s.Conforms v := by
  constructor
  · intro h name s hs
    cases h with
    | object _ _ present each =>
        have hmem := Fields.mem_of_lookup_eq_some hs
        obtain ⟨v, hv⟩ := present _ hmem
        exact ⟨v, hv, each _ hmem v hv⟩
  · intro h
    refine .object _ _ (fun f hf => ?_) fun f hf v hv => ?_
    · obtain ⟨v, hv, -⟩ := h _ _ (Fields.lookup_of_mem hfields hf)
      exact ⟨v, hv⟩
    · obtain ⟨w, hw, hconforms⟩ := h _ _ (Fields.lookup_of_mem hfields hf)
      obtain rfl := Option.some.inj (hv.symm.trans hw)
      exact hconforms

/-- What describes more of the items describes more of the arrays. -/
theorem Conforms.array_imp {item item' : Shape} (h : ∀ v, item.Conforms v → item'.Conforms v)
    {v : Json} (hv : (Shape.array item).Conforms v) : (Shape.array item').Conforms v := by
  cases hv with
  | nullArray => exact .nullArray _
  | array _ items each => exact .array _ _ fun v hv => h v (each v hv)

/-- What describes more of the values under each of its names describes more of the objects. -/
theorem Conforms.object_imp (hfs : (Fields.names fs).Nodup) (hgs : (Fields.names gs).Nodup)
    (h : ∀ name g, gs.lookup name = some g →
      ∃ s, fs.lookup name = some s ∧ ∀ v, s.Conforms v → g.Conforms v)
    {v : Json} (hv : (Shape.object fs).Conforms v) : (Shape.object gs).Conforms v := by
  cases v with
  | object given =>
      rw [conforms_object_iff hfs] at hv
      rw [conforms_object_iff hgs]
      intro name g hg
      obtain ⟨s, hs, himp⟩ := h name g hg
      obtain ⟨v, hv, hconforms⟩ := hv name s hs
      exact ⟨v, hv, himp v hconforms⟩
  | null | bool | number | string | array => cases hv

/-- Shapes that are alike describe the same values. -/
theorem conforms_iff_of_alike {a b : Shape} (ha : a.Distinct) (hb : b.Distinct)
    (h : a.alike b = true) (v : Json) : a.Conforms v ↔ b.Conforms v := by
  unfold Distinct at ha hb
  induction a generalizing b v with
  | leaf kind =>
      cases b with
      | leaf kind' =>
          rw [alike, beq_iff_eq] at h
          rw [h]
      | array | object => cases h
  | array item ih =>
      cases b with
      | array item' =>
          rw [everyObject_array] at ha hb
          rw [alike] at h
          have hitem := fun v => ih ha hb h v
          exact ⟨Conforms.array_imp fun v => (hitem v).1, Conforms.array_imp fun v => (hitem v).2⟩
      | leaf | object => cases h
  | object fs ih =>
      cases b with
      | object gs =>
          rw [everyObject_object] at ha hb
          rw [alike_object_iff ha.1] at h
          have hfield : ∀ name s g, fs.lookup name = some s → gs.lookup name = some g →
              s.alike g = true → ∀ v, s.Conforms v ↔ g.Conforms v := by
            intro name s g hs hg halike
            have hmem := Fields.mem_of_lookup_eq_some hs
            exact fun v => ih _ hmem (ha.2 _ hmem) (hb.2 _ (Fields.mem_of_lookup_eq_some hg)) halike v
          constructor
          · refine Conforms.object_imp ha.1 hb.1 fun name g hg => ?_
            obtain ⟨s, hs, halike⟩ := h.exists_left hg
            exact ⟨s, hs, fun v => (hfield name s g hs hg halike v).1⟩
          · refine Conforms.object_imp hb.1 ha.1 fun name s hs => ?_
            obtain ⟨g, hg, halike⟩ := h.exists_right hs
            exact ⟨g, hg, fun v => (hfield name s g hs hg halike v).2⟩
      | leaf | array => cases h

/-- Under a declared name a projection has what is left of the value there. -/
theorem lookup_projectFields (name : Text) :
    (projectFields fields given).lookup name =
      (fields.lookup name).bind fun s => (given.lookup name).map s.project := by
  induction fields with
  | nil => rfl
  | cons f rest ih =>
      obtain ⟨k, s⟩ := f
      rw [projectFields]
      by_cases h : name = k
      · subst h
        cases hv : given.lookup name with
        | none => rw [ih]; cases rest.lookup name <;> simp [hv]
        | some v => simp
      · have hne : (name == k) = false := beq_eq_false_iff_ne.2 h
        cases given.lookup k <;> simp [List.lookup_cons, hne, ih]

/-- What shapes that are alike leave of a value differs at most in the order of fields. -/
theorem rearranged_project_of_alike {a b : Shape} (ha : a.Distinct) (hb : b.Distinct)
    (h : a.alike b = true) {v : Json} (hv : a.Conforms v) :
    (a.project v).Rearranged (b.project v) := by
  unfold Distinct at ha hb
  induction a generalizing b v with
  | leaf kind =>
      cases b with
      | leaf kind' =>
          rw [project, project]
          exact .refl v
      | array | object => cases h
  | array item ih =>
      cases b with
      | array item' =>
          rw [everyObject_array] at ha hb
          rw [alike] at h
          rw [project, project]
          cases hv with
          | nullArray => exact .null
          | array _ items each =>
              refine .array (by simp) fun i v w hv hw => ?_
              rw [List.getElem?_map, Option.map_eq_some_iff] at hv hw
              obtain ⟨u, hu, rfl⟩ := hv
              obtain ⟨u', hu', rfl⟩ := hw
              obtain rfl := Option.some.inj (hu.symm.trans hu')
              exact ih ha hb h (each u (List.mem_of_getElem? hu))
      | leaf | object => cases h
  | object fs ih =>
      cases b with
      | object gs =>
          have hconforms := (conforms_iff_of_alike (a := .object fs) ha hb h v).1 hv
          rw [everyObject_object] at ha hb
          rw [alike_object_iff ha.1] at h
          rw [project, project]
          cases hv with
          | object _ given present each =>
              cases hconforms with
              | object _ _ present' _ =>
                  refine .object ?_ fun name v w hv hw => ?_
                  · rw [names_projectFields present, names_projectFields present']
                    exact h.names
                  · rw [lookup_projectFields, Option.bind_eq_some_iff] at hv hw
                    obtain ⟨s, hs, hv⟩ := hv
                    obtain ⟨g, hg, hw⟩ := hw
                    -- both are left of the value that is given under the name
                    obtain ⟨u, hu, rfl⟩ := Option.map_eq_some_iff.1 hv
                    obtain ⟨u', hu', rfl⟩ := Option.map_eq_some_iff.1 hw
                    obtain rfl := Option.some.inj (hu.symm.trans hu')
                    have hmem := Fields.mem_of_lookup_eq_some hs
                    exact ih _ hmem (ha.2 _ hmem) (hb.2 _ (Fields.mem_of_lookup_eq_some hg))
                      (h.each name s g hs hg) (each _ hmem u hu)
      | leaf | array => cases h

end ShapedJson.Shape
