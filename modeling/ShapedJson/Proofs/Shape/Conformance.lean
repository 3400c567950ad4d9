import ShapedJson.Proofs.Results
import ShapedJson.Shape.Check

/-!
# Conformance and projection

What it means for a value to conform to a shape, and what is left of the value once all that
the shape does not declare is gone.  A check succeeds exactly on the values that conform, and
gives their projection.
-/

namespace ShapedJson

theorem Violation.shift_eq_ok_iff {α : Type} {step : Step} {r : Gathered Violation α} {a : α} :
    Violation.shift step r = .ok a ↔ r = .ok a :=
  Results.mapError_eq_ok_iff

namespace Shape

/-- The values that a shape describes.  Leaves and arrays may be null and objects may not. -/
inductive Conforms : Shape → Json → Prop
  | nullLeaf (kind : Leaf) : Conforms (.leaf kind) .null
  | string (s : Text) : Conforms (.leaf .string) (.string s)
  | whole (n : Int) : Conforms (.leaf .number) (.number (.whole n))
  | real (x : Binary64) (finite : x.isFinite = true) : Conforms (.leaf .number) (.number (.real x))
  | boolean (b : Bool) : Conforms (.leaf .boolean) (.bool b)
  | nullArray (item : Shape) : Conforms (.array item) .null
  | array (item : Shape) (items : List Json) (each : ∀ v ∈ items, Conforms item v) :
      Conforms (.array item) (.array items)
  | object (fields : List (Text × Shape)) (given : List (Text × Json))
      (present : ∀ f ∈ fields, ∃ v, given.lookup f.1 = some v)
      (each : ∀ f ∈ fields, ∀ v, given.lookup f.1 = some v → Conforms f.2 v) :
      Conforms (.object fields) (.object given)

mutual

/-- What a shape declares of a value.  Leaves stay as they are, lists keep their items in
order, and an object has the declared keys in the order of the shape. -/
def project : Shape → Json → Json
  | .leaf _ => fun v => v
  | .array item => fun v =>
    match v with
    | .array items => .array (items.map (project item))
    | v => v
  | .object fields => fun v =>
    match v with
    | .object given => .object (projectFields fields given)
    | v => v

/-- The declared fields, each with what is declared of the value under its key. -/
def projectFields : List (Text × Shape) → List (Text × Json) → List (Text × Json)
  | [], _ => []
  | (k, s) :: rest, given =>
    match given.lookup k with
    | some v => (k, project s v) :: projectFields rest given
    | none => projectFields rest given

end

/-- A check of a leaf changes nothing and accepts exactly the values of its kind. -/
theorem checkLeaf_eq_ok_iff {kind : Leaf} {v r : Json} :
    checkLeaf kind v = .ok r ↔ Conforms (.leaf kind) v ∧ r = v := by
  constructor
  · intro h
    unfold checkLeaf at h
    split at h
    · cases h
      exact ⟨.nullLeaf _, rfl⟩
    · cases h
      exact ⟨.string _, rfl⟩
    · cases h
    · cases h
      exact ⟨.whole _, rfl⟩
    · split at h
      · rename_i hx
        cases h
        exact ⟨.real _ hx, rfl⟩
      · cases h
    · cases h
    · cases h
      exact ⟨.boolean _, rfl⟩
    · cases h
  · rintro ⟨hv, rfl⟩
    cases hv with
    | nullLeaf kind => cases kind <;> rfl
    | string s => rfl
    | whole n => rfl
    | real x hx => simp [checkLeaf, hx]
    | boolean b => rfl

/-- Items are accepted together when each is accepted alone. -/
theorem checkEach_eq_ok_iff {item : Shape} {checkItem : Json → Gathered Violation Json}
    (hitem : ∀ v r, checkItem v = .ok r ↔ Conforms item v ∧ r = item.project v)
    {index : Nat} {items rs : List Json} :
    checkEach checkItem index items = .ok rs ↔
      (∀ v ∈ items, Conforms item v) ∧ rs = items.map item.project := by
  induction items generalizing index rs with
  | nil => simp [checkEach, eq_comm]
  | cons v rest ih =>
      rw [checkEach, Gathered.apply_eq_ok_iff]
      simp only [Results.map_eq_ok_iff, Violation.shift_eq_ok_iff, hitem, ih]
      constructor
      · rintro ⟨_, _, ⟨_, ⟨hv, rfl⟩, rfl⟩, ⟨hrest, rfl⟩, rfl⟩
        refine ⟨?_, rfl⟩
        rintro w (_ | ⟨_, hw⟩)
        · exact hv
        · exact hrest w hw
      · rintro ⟨hall, rfl⟩
        exact ⟨_, _, ⟨_, ⟨hall v (by simp), rfl⟩, rfl⟩,
          ⟨fun w hw => hall w (by simp [hw]), rfl⟩, rfl⟩

/-- An object conforms when the first declared field is there and conforms, and the object conforms
to the other fields. -/
theorem conforms_object_cons_iff {k : Text} {s : Shape} {rest : List (Text × Shape)}
    {given : List (Text × Json)} :
    Conforms (.object ((k, s) :: rest)) (.object given) ↔
      (∃ v, given.lookup k = some v ∧ Conforms s v) ∧ Conforms (.object rest) (.object given) := by
  constructor
  · intro h
    cases h with
    | object _ _ present each =>
        obtain ⟨v, hv⟩ := present (k, s) (by simp)
        have hs := each (k, s) (by simp) v hv
        exact ⟨⟨v, hv, hs⟩, .object _ _ (fun f hf => present f (by simp [hf]))
          fun f hf => each f (by simp [hf])⟩
  · rintro ⟨⟨v, hk, hs⟩, hrest⟩
    cases hrest with
    | object _ _ present each =>
        refine .object _ _ ?_ ?_
        · rintro f (_ | ⟨_, hf⟩)
          · exact ⟨v, hk⟩
          · exact present f hf
        · rintro f (_ | ⟨_, hf⟩) w hw
          · obtain rfl : v = w := Option.some.inj (hk.symm.trans hw)
            exact hs
          · exact each f hf w hw

/-- Fields are accepted together when each is there and is accepted alone. -/
theorem checkFields_eq_ok_iff {fields : List (Text × Shape)} {given : List (Text × Json)}
    (hfields : ∀ f ∈ fields, ∀ v r, check f.2 v = .ok r ↔ Conforms f.2 v ∧ r = f.2.project v)
    {rs : List (Text × Json)} :
    checkFields fields given = .ok rs ↔
      Conforms (.object fields) (.object given) ∧ rs = projectFields fields given := by
  induction fields generalizing rs with
  | nil =>
      have hnil : Conforms (.object []) (.object given) := .object _ _ (by simp) (by simp)
      simp [checkFields, projectFields, hnil, eq_comm]
  | cons f rest ih =>
      obtain ⟨k, s⟩ := f
      have hs := hfields (k, s) (by simp)
      have ih := @ih fun f hf => hfields f (by simp [hf])
      rw [checkFields, projectFields]
      simp only [Gathered.apply_eq_ok_iff, Results.map_eq_ok_iff, ih, conforms_object_cons_iff]
      cases hk : given.lookup k with
      | none => simp
      | some v =>
          simp only [Violation.shift_eq_ok_iff, hs]
          constructor
          · rintro ⟨_, _, ⟨_, ⟨hv, rfl⟩, rfl⟩, ⟨hrest, rfl⟩, rfl⟩
            exact ⟨⟨⟨v, rfl, hv⟩, hrest⟩, rfl⟩
          · rintro ⟨⟨⟨w, hw, hv⟩, hrest⟩, rfl⟩
            cases hw
            exact ⟨_, _, ⟨_, ⟨hv, rfl⟩, rfl⟩, ⟨hrest, rfl⟩, rfl⟩

/-- A check succeeds exactly on the values that conform, and gives their projection. -/
theorem check_eq_ok_iff (s : Shape) :
    ∀ v r : Json, s.check v = .ok r ↔ Conforms s v ∧ r = s.project v := by
  induction s with
  | leaf kind =>
      intro v r
      rw [check, project]
      exact checkLeaf_eq_ok_iff
  | array item ih =>
      intro v r
      rw [check, project]
      cases v with
      | null =>
          constructor
          · intro h
            cases h
            exact ⟨.nullArray _, rfl⟩
          · rintro ⟨-, rfl⟩
            rfl
      | array items =>
          simp only [Results.map_eq_ok_iff, checkEach_eq_ok_iff ih]
          constructor
          · rintro ⟨_, ⟨hall, rfl⟩, rfl⟩
            exact ⟨.array _ _ hall, rfl⟩
          · rintro ⟨hc, rfl⟩
            cases hc with
            | array _ _ hall => exact ⟨_, ⟨hall, rfl⟩, rfl⟩
      | bool b | number n | string t | object given =>
          -- neither null nor a list: a violation, and no constructor of conformance
          exact iff_of_false (fun h => nomatch h) (fun h => nomatch h.1)
  | object fields ih =>
      intro v r
      rw [check, project]
      cases v with
      | object given =>
          simp only [Results.map_eq_ok_iff, checkFields_eq_ok_iff ih]
          constructor
          · rintro ⟨_, ⟨hc, rfl⟩, rfl⟩
            exact ⟨hc, rfl⟩
          · rintro ⟨hc, rfl⟩
            exact ⟨_, ⟨hc, rfl⟩, rfl⟩
      | null | bool b | number n | string t | array items =>
          exact iff_of_false (fun h => nomatch h) (fun h => nomatch h.1)

end Shape

end ShapedJson
