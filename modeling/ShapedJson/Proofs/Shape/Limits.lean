import ShapedJson.Proofs.Shape.Edits

/-!
# Limits of descriptions

How what comes of a description depends on the limit.  Once a description is not too deep, a
greater limit changes nothing, and no description is too deep for all limits.  A limit hides what
stands beyond it: of a node that lies too deep, nothing but its place counts.
-/

namespace ShapedJson

/-! ## Nodes -/

namespace Node

/-- What a node that is not too deep fails with does not depend on the limit. -/
theorem error?_of_le {n : Node} {limit limit' : Int} (hle : limit ≤ limit')
    (h : ∀ e, n.error? limit = some e → e.defect ≠ .tooDeep) :
    n.error? limit' = n.error? limit := by
  have hwithin : ¬ limit < n.path.length := by
    intro hdeep
    refine h ⟨n.path, .tooDeep⟩ ?_ rfl
    rw [error?, defect?, if_pos hdeep]
    rfl
  have hwithin' : ¬ limit' < n.path.length := by omega
  rw [error?, error?, defect?, defect?, if_neg hwithin, if_neg hwithin']

end Node

theorem Json.depthOfFields_le_iff {fields : List (Text × Json)} {n : Nat} :
    depthOfFields fields ≤ n ↔ ∀ f ∈ fields, f.2.depth + 1 ≤ n := by
  induction fields with
  | nil => simp [depthOfFields]
  | cons f rest ih =>
      obtain ⟨k, v⟩ := f
      rw [depthOfFields, Nat.max_le, ih, List.forall_mem_cons]

/-! ## Replaced nodes -/

namespace Json

mutual

/-- Only what stands the given number of steps below the root is replaced. -/
inductive ReplacedAt : Nat → Json → Json → Prop
  | here (raw raw' : Json) : ReplacedAt 0 raw raw'
  | kept {n : Nat} (raw : Json) : ReplacedAt (n + 1) raw raw
  | items {n : Nat} {before after : List (Text × Json)} {v v' : Json}
      (kind : (Json.object (before ++ (itemsKey, v) :: after)).HasKind .array)
      (inside : ReplacedAt n v v') :
      ReplacedAt (n + 1) (.object (before ++ (itemsKey, v) :: after))
        (.object (before ++ (itemsKey, v') :: after))
  | fields {n : Nat} {fields fields' : List (Text × Json)}
      (kind : (Json.object fields).HasKind .object) (inside : FieldsReplacedAt n fields fields') :
      ReplacedAt (n + 1) (.object fields) (.object fields')

/-- In each field, only what stands the given number of steps below is replaced. -/
inductive FieldsReplacedAt : Nat → List (Text × Json) → List (Text × Json) → Prop
  | nil {n : Nat} : FieldsReplacedAt n [] []
  | type {n : Nat} {v : Json} {rest rest' : List (Text × Json)}
      (others : FieldsReplacedAt n rest rest') :
      FieldsReplacedAt n ((typeKey, v) :: rest) ((typeKey, v) :: rest')
  | field {n : Nat} {k : Text} {v v' : Json} {rest rest' : List (Text × Json)} (name : k ≠ typeKey)
      (value : ReplacedAt n v v') (others : FieldsReplacedAt n rest rest') :
      FieldsReplacedAt n ((k, v) :: rest) ((k, v') :: rest')

end

/-- No type is replaced. -/
theorem FieldsReplacedAt.lookup_type {n : Nat} {fields fields' : List (Text × Json)}
    (h : FieldsReplacedAt n fields fields') : fields'.lookup typeKey = fields.lookup typeKey := by
  induction fields generalizing fields' with
  | nil =>
      cases h
      rfl
  | cons f rest ih =>
      cases h with
      | type others => rw [List.lookup_cons_self, List.lookup_cons_self]
      | @field _ k _ _ _ _ name value others =>
          have hne : (typeKey == k) = false := beq_eq_false_iff_ne.2 name.symm
          rw [List.lookup_cons, List.lookup_cons, hne, ih others]

end Json

namespace Shape

/-- The description is refused because a node lies too deep. -/
def TooDeep (limit : Int) (raw : Json) : Prop :=
  ∃ location, (ofDescription limit raw).mapError (·.toFailure limit) =
    .error (.shapeTooDeep limit location)

theorem tooDeep_iff {limit : Int} {raw : Json} :
    TooDeep limit raw ↔ ∃ e, describe limit raw = .error e ∧ e.defect = .tooDeep := by
  rw [TooDeep, ofDescription]
  constructor
  · rintro ⟨location, h⟩
    obtain ⟨⟨path, defect⟩, he, hfailure⟩ := Results.mapError_eq_error_iff.1 h
    cases defect with
    | tooDeep => exact ⟨_, he, rfl⟩
    | unsupportedKind | missingItems => cases hfailure
  · rintro ⟨⟨path, _⟩, he, rfl⟩
    exact ⟨_, Results.mapError_eq_error_iff.2 ⟨_, he, rfl⟩⟩

/-- What comes of a description that is not too deep does not depend on the limit. -/
theorem describe_of_le {raw : Json} {room room' : Int} (hle : room ≤ room')
    (h : ¬ TooDeep room raw) : describe room' raw = describe room raw := by
  cases hread : describe room raw with
  | ok s =>
      obtain ⟨hs, hdepth⟩ := (describe_eq_ok_iff raw room s).1 hread
      exact (describe_eq_ok_iff raw room' s).2 ⟨hs, hdepth.trans hle⟩
  | error e =>
      obtain ⟨before, n, after, hnodes, hn, hbefore⟩ := describe_eq_error_iff.1 hread
      -- the first node at fault and those before it are within the limit, whatever comes after
      have hfault : n.error? room' = n.error? room := by
        refine Node.error?_of_le hle fun e' he' hdeep => h (tooDeep_iff.2 ⟨e, hread, ?_⟩)
        cases hn.symm.trans he'
        exact hdeep
      refine describe_eq_error_iff.2 ⟨before, n, after, hnodes, hfault.trans hn, fun m hm => ?_⟩
      refine (Node.error?_of_le hle fun e' he' => ?_).trans (hbefore m hm)
      cases (hbefore m hm).symm.trans he'

/-- No node lies deeper than the depth of the description. -/
theorem not_tooDeep_of_depth_le {raw : Json} :
    ∀ {room : Int}, (raw.depth : Int) ≤ room → ¬ TooDeep room raw := by
  simp only [tooDeep_iff]
  rintro room hdepth ⟨e, he, hdeep⟩
  induction raw generalizing room e with
  | null | bool | number | string | array =>
      obtain ⟨defect, rfl, hdefect⟩ | ⟨-, fields, hraw, -⟩ := describe_error_cases he
      · have := hdefect.1 hdeep
        omega
      · cases hraw
  | object fields ih =>
      obtain ⟨defect, rfl, hdefect⟩ | ⟨-, fields, ⟨⟩, f, hf, e', he', rfl⟩ := describe_error_cases he
      · have := hdefect.1 hdeep
        omega
      · have hle := Json.depthOfFields_le_iff.1 (Nat.le_refl _) f hf
        rw [Json.depth] at hdepth
        exact ih f hf (by omega) e' he' hdeep

theorem describeFields_of_replacedAt {n : Nat} {room : Int}
    (hvalue : ∀ {v v' : Json}, v.ReplacedAt n v' → describe room v' = describe room v)
    {fields fields' : List (Text × Json)} (h : Json.FieldsReplacedAt n fields fields') :
    describeFields room fields' = describeFields room fields := by
  induction fields generalizing fields' with
  | nil =>
      cases h
      rfl
  | cons f rest ih =>
      cases h with
      | type others => rw [describeFields, describeFields, if_pos rfl, if_pos rfl, ih others]
      | field name value others => rw [describeFields, describeFields, hvalue value, ih others]

/-- What stands one step beyond the room can be replaced by anything. -/
theorem describe_of_replacedAt {n : Nat} {raw raw' : Json} (h : raw.ReplacedAt n raw') :
    describe ((n : Int) - 1) raw' = describe ((n : Int) - 1) raw := by
  induction n generalizing raw raw' with
  | zero => rw [describe_of_neg (by decide), describe_of_neg (by decide)]
  | succ n ih =>
      have hroom : ((n + 1 : Nat) : Int) - 1 - 1 = (n : Int) - 1 := by omega
      cases h with
      | kept => rfl
      | items kind inside =>
          refine describe_items_congr kind ?_
          rw [hroom, ih inside]
      | fields kind inside =>
          refine describe_object_congr (describedKind_congr inside.lookup_type) (fun kind' => ?_)
            fun _ => ?_
          · cases kind.unique kind'
          · rw [hroom, describeFields_of_replacedAt ih inside]

/-- What comes of a description that is not too deep comes of it under every greater limit, with the
same failure when it is refused; under a limit as great as its depth no description is too deep; and
what stands one step beyond a limit can be replaced by anything. -/
theorem ofDescription_settles (raw : Json) :
    (∀ limit limit', limit ≤ limit' → ¬ TooDeep limit raw →
      ofDescription limit' raw = ofDescription limit raw ∧
      (ofDescription limit' raw).mapError (·.toFailure limit') =
        (ofDescription limit raw).mapError (·.toFailure limit)) ∧
    (∀ limit : Int, raw.depth ≤ limit → ¬ TooDeep limit raw) ∧
    (∀ (limit : Nat) raw', raw.ReplacedAt (limit + 1) raw' →
      ofDescription limit raw' = ofDescription limit raw) := by
  refine ⟨fun limit limit' hle h => ?_, fun limit hdepth => not_tooDeep_of_depth_le hdepth, ?_⟩
  · have heq : ofDescription limit' raw = ofDescription limit raw := describe_of_le hle h
    refine ⟨heq, ?_⟩
    rw [heq]
    cases hread : ofDescription limit raw with
    | ok s => rfl
    | error e =>
        -- only the failure of a node that lies too deep names the limit
        obtain ⟨path, defect⟩ := e
        cases defect with
        | tooDeep => exact absurd (tooDeep_iff.2 ⟨_, hread, rfl⟩) h
        | unsupportedKind | missingItems => rfl
  · intro limit raw' h
    have hsame := describe_of_replacedAt h
    rwa [Int.natCast_add, Int.natCast_one, Int.add_sub_cancel] at hsame

end Shape

end ShapedJson
