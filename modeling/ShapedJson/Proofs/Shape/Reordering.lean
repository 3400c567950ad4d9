import ShapedJson.Failure
import ShapedJson.Proofs.Shape.Alike

/-!
# Descriptions in another order

A description whose fields are put in another order, at any depth, describes a shape when the first
one does, and the two shapes are alike.
-/

namespace ShapedJson.Shape

variable {room : Int} {fields fields' : List (Text × Json)} {described : List (Text × Shape)}
  {name : Text} {s : Shape}

/-- The kind that an object names, or implies, does not depend on the order of its fields. -/
theorem describedKind_eq_of_rearranges (h : Fields.Rearranges Json.Rearranged fields fields') :
    Kind.ofJson? (Json.describedKind (.object fields)) =
      Kind.ofJson? (Json.describedKind (.object fields')) := by
  rw [Json.describedKind, Json.describedKind]
  cases hv : fields.lookup typeKey with
  | none => rw [h.lookup_eq_none_iff.1 hv]
  | some v =>
      obtain ⟨w, hw, hvw⟩ := h.exists_right hv
      rw [hw]
      cases hvw <;> rfl

theorem describeItems_eq_ok_iff :
    describeItems room fields = .ok s ↔
      ∃ v, fields.lookup itemsKey = some v ∧ describe room v = .ok s := by
  induction fields with
  | nil => exact iff_of_false nofun (by simp)
  | cons f rest ih =>
      obtain ⟨k, v⟩ := f
      rw [describeItems]
      by_cases h : k = itemsKey
      · rw [if_pos h, h, List.lookup_cons_self, Results.mapError_eq_ok_iff]
        simp
      · have hne : (itemsKey == k) = false := beq_eq_false_iff_ne.2 fun e => h e.symm
        rw [if_neg h, ih, List.lookup_cons, hne]

theorem describeFields_cons_eq_ok_iff {k : Text} {v : Json} (h : k ≠ typeKey) :
    describeFields room ((k, v) :: fields) = .ok described ↔
      ∃ s others, describe room v = .ok s ∧ describeFields room fields = .ok others ∧
        described = (k, s) :: others := by
  rw [describeFields, if_neg h]
  rw [Results.bind_eq_ok_iff]
  constructor
  · rintro ⟨s, hs, hrest⟩
    obtain ⟨others, hothers, heq⟩ := Results.bind_eq_ok_iff.1 hrest
    exact ⟨s, others, Results.mapError_eq_ok_iff.1 hs, hothers, (Except.ok.inj heq).symm⟩
  · rintro ⟨s, others, hs, hothers, rfl⟩
    exact ⟨s, Results.mapError_eq_ok_iff.2 hs, Results.bind_eq_ok_iff.2 ⟨others, hothers, rfl⟩⟩

/-- Fields are described when each of them but the type is. -/
theorem exists_describeFields_iff :
    (∃ described, describeFields room fields = .ok described) ↔
      ∀ f ∈ fields, f.1 ≠ typeKey → ∃ s, describe room f.2 = .ok s := by
  induction fields with
  | nil => exact iff_of_true ⟨[], rfl⟩ nofun
  | cons f rest ih =>
      obtain ⟨k, v⟩ := f
      rw [List.forall_mem_cons, ← ih]
      by_cases h : k = typeKey
      · rw [describeFields, if_pos h]
        exact ⟨fun hrest => ⟨fun hne => absurd h hne, hrest⟩, fun hrest => hrest.2⟩
      · simp only [describeFields_cons_eq_ok_iff h]
        constructor
        · rintro ⟨_, s, others, hs, hothers, -⟩
          exact ⟨fun _ => ⟨s, hs⟩, others, hothers⟩
        · rintro ⟨hv, others, hothers⟩
          obtain ⟨s, hs⟩ := hv h
          exact ⟨_, s, others, hs, hothers, rfl⟩

/-- The names that are described are those that are given, but for the type. -/
theorem names_describeFields (h : describeFields room fields = .ok described) :
    Fields.names described = (Fields.names fields).filter (· ≠ typeKey) := by
  induction fields generalizing described with
  | nil =>
      cases h
      rfl
  | cons f rest ih =>
      obtain ⟨k, v⟩ := f
      show _ = (k :: Fields.names rest).filter (· ≠ typeKey)
      by_cases hk : k = typeKey
      · rw [describeFields, if_pos hk] at h
        rw [ih h, List.filter_cons_of_neg (by simp [hk])]
      · obtain ⟨s, others, -, hothers, rfl⟩ := (describeFields_cons_eq_ok_iff hk).1 h
        rw [List.filter_cons_of_pos (by simp [hk]), ← ih hothers]
        rfl

/-- What is described under a name is what is given under it. -/
theorem lookup_describeFields (h : describeFields room fields = .ok described)
    (hs : described.lookup name = some s) :
    ∃ v, fields.lookup name = some v ∧ describe room v = .ok s := by
  induction fields generalizing described with
  | nil =>
      cases h
      cases hs
  | cons f rest ih =>
      obtain ⟨k, v⟩ := f
      rw [List.lookup_cons]
      by_cases hk : k = typeKey
      · -- a name that is described is not the type
        have hname : name ∈ (Fields.names ((k, v) :: rest)).filter (· ≠ typeKey) := by
          rw [← names_describeFields h]
          exact Fields.mem_names_iff.2 ⟨s, hs⟩
        have hne : name ≠ k := by
          rw [hk]
          simpa using (List.mem_filter.1 hname).2
        rw [describeFields, if_pos hk] at h
        rw [beq_eq_false_iff_ne.2 hne]
        exact ih h hs
      · obtain ⟨t, others, ht, hothers, rfl⟩ := (describeFields_cons_eq_ok_iff hk).1 h
        rw [List.lookup_cons] at hs
        cases hname : name == k with
        | true =>
            rw [hname] at hs
            obtain rfl := Option.some.inj hs
            exact ⟨v, rfl, ht⟩
        | false =>
            rw [hname] at hs
            exact ih hothers hs

/-- Fields in another order are described as well, when each field stands for a shape that is alike
when it is rearranged itself. -/
theorem describeFields_of_rearranges {r : Json → Json → Prop}
    (h : Fields.Rearranges r fields fields') (hnodup : (Fields.names fields).Nodup)
    (heach : ∀ name v w, fields.lookup name = some v → fields'.lookup name = some w →
      ∀ s, describe room v = .ok s → ∃ s', describe room w = .ok s' ∧ s.alike s' = true)
    (hdescribed : describeFields room fields = .ok described) :
    ∃ described', describeFields room fields' = .ok described' ∧
      alike (.object described) (.object described') = true := by
  have hnodup' := h.names.nodup_iff.1 hnodup
  obtain ⟨described', hdescribed'⟩ : ∃ described',
      describeFields room fields' = .ok described' := by
    refine exists_describeFields_iff.2 fun f hf hname => ?_
    have hw := Fields.lookup_of_mem hnodup' hf
    obtain ⟨v, hv, -⟩ := h.exists_left hw
    obtain ⟨s, hs⟩ := exists_describeFields_iff.1 ⟨described, hdescribed⟩ _
      (Fields.mem_of_lookup_eq_some hv) hname
    obtain ⟨s', hs', -⟩ := heach _ v f.2 hv hw s hs
    exact ⟨s', hs'⟩
  refine ⟨described', hdescribed', ?_⟩
  have hnames := names_describeFields hdescribed
  have hdistinct : (Fields.names described).Nodup := by
    rw [hnames]
    exact hnodup.filter _
  rw [alike_object_iff hdistinct]
  refine ⟨?_, fun name s s' hs hs' => ?_⟩
  · rw [hnames, names_describeFields hdescribed']
    exact h.names.filter _
  · obtain ⟨v, hv, hvs⟩ := lookup_describeFields hdescribed hs
    obtain ⟨w, hw, hws⟩ := lookup_describeFields hdescribed' hs'
    obtain ⟨s'', hs'', halike⟩ := heach name v w hv hw s hvs
    obtain rfl := Except.ok.inj (hws.symm.trans hs'')
    exact halike

/-- A description in another order has a shape as well, and one that is alike. -/
theorem describe_of_rearranged {raw raw' : Json} (h : raw.Rearranged raw') (hraw : raw.Distinct)
    (hs : describe room raw = .ok s) : ∃ s', describe room raw' = .ok s' ∧ s.alike s' = true := by
  unfold Json.Distinct at hraw
  induction h generalizing room s with
  | null | bool b | number n | string t =>
      refine ⟨s, hs, ?_⟩
      rw [describe] at hs
      split at hs <;> cases hs <;> simp [alike]
  | array length each ih =>
      rw [describe] at hs
      split at hs <;> cases hs
  | @object fields fields' names each ih =>
      have hfields : Fields.Rearranges Json.Rearranged fields fields' := ⟨names, each⟩
      rw [Json.every_object] at hraw
      have hchild : ∀ name v, fields.lookup name = some v → v.Every _ := fun name v hv =>
        hraw.2 _ (Fields.mem_of_lookup_eq_some hv)
      rw [describe] at hs ⊢
      rw [← describedKind_eq_of_rearranges hfields]
      split at hs
      · cases hs
      · rename_i hroom
        rw [if_neg hroom]
        split at hs
        · cases hs
        · cases hs
          exact ⟨_, rfl, by simp [alike]⟩
        · obtain ⟨item, hitem, rfl⟩ := Results.map_eq_ok_iff.1 hs
          obtain ⟨v, hv, hdescribed⟩ := describeItems_eq_ok_iff.1 hitem
          obtain ⟨w, hw, -⟩ := hfields.exists_right hv
          obtain ⟨item', hitem', halike⟩ := ih _ v w hv hw (hchild _ v hv) hdescribed
          refine ⟨.array item', Results.map_eq_ok_iff.2 ⟨item', ?_, rfl⟩, by rw [alike, halike]⟩
          exact describeItems_eq_ok_iff.2 ⟨w, hw, hitem'⟩
        · obtain ⟨described, hdescribed, rfl⟩ := Results.map_eq_ok_iff.1 hs
          obtain ⟨described', hdescribed', halike⟩ := describeFields_of_rearranges hfields hraw.1
            (fun name v w hv hw s hs => ih name v w hv hw (hchild name v hv) hs) hdescribed
          exact ⟨.object described', Results.map_eq_ok_iff.2 ⟨_, hdescribed', rfl⟩, halike⟩

/-- A description that is refused is refused in any other order. -/
theorem describe_refused_iff_of_rearranged {raw raw' : Json} (h : raw.Rearranged raw')
    (hraw : raw.Distinct) :
    (∃ e, describe room raw = .error e) ↔ ∃ e, describe room raw' = .error e := by
  have hback : ∀ {u w : Json}, u.Rearranged w → u.Distinct →
      (∃ e, describe room w = .error e) → ∃ e, describe room u = .error e := by
    rintro u w huw hu ⟨e, he⟩
    cases hs : describe room u with
    | error e' => exact ⟨e', rfl⟩
    | ok s =>
        obtain ⟨s', hs', -⟩ := describe_of_rearranged huw hu hs
        cases he.symm.trans hs'
  exact ⟨hback h.symm (h.distinct hraw), hback h hraw⟩

end ShapedJson.Shape
