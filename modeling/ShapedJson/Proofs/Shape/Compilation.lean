import ShapedJson.Proofs.Shape.Limits
import ShapedJson.Proofs.Shape.Names
import ShapedJson.Shape.Compile

/-!
# Validators on a stack

A description gives a validator, is refused, or finds no room on the stack.  When there is room, it
is as if there were no stack; there is room for every description that is flat enough, and no room
to show a shape for one that is nested deeply enough.
-/

namespace ShapedJson

/-- The stack has no room for a description or for its shape. -/
inductive Shape.Overflows (stack : Stack) (limit : Int) (raw : Json) : Prop
  /-- A node lies too deep to be read, though not beyond the limit, and none before it has a
  defect. -/
  | reading (path : List Text) (beyond : stack.reading ≤ limit)
      (reached : ofDescription stack.reading raw = .error ⟨path, .tooDeep⟩)
  /-- The kind that is refused cannot be shown. -/
  | refusing (path : List Text) (kind : Json)
      (refused : ofDescription limit raw = .error ⟨path, .unsupportedKind kind⟩)
      (beyond : stack.refusing < path.length + kind.depth)
  /-- The shape cannot be shown. -/
  | showing (shape : Shape) (described : ofDescription limit raw = .ok shape)
      (beyond : stack.showing < shape.showingCalls)
  /-- The types of the shape cannot be built. -/
  | building (shape : Shape) (described : ofDescription limit raw = .ok shape)
      (beyond : stack.builds shape = false)

namespace Shape

variable {stack : Stack} {limit : Int} {raw : Json}

/-! ## What comes of a description -/

/-- Unless a node lies too deep to be read, the stack does not count for reading. -/
theorem ofDescription_min (h : ∀ path, stack.reading ≤ limit →
    ofDescription stack.reading raw ≠ .error ⟨path, .tooDeep⟩) :
    ofDescription (min limit stack.reading) raw = ofDescription limit raw := by
  by_cases hle : limit ≤ stack.reading
  · rw [Int.min_eq_left hle]
  · have hge : stack.reading ≤ limit := Int.le_of_not_le hle
    rw [Int.min_eq_right hge]
    refine (describe_of_le hge fun hdeep => ?_).symm
    obtain ⟨⟨path, defect⟩, he, rfl⟩ := tooDeep_iff.1 hdeep
    exact h path hge he

theorem ofDescription_min_of_not_overflows (h : ¬ Overflows stack limit raw) :
    ofDescription (min limit stack.reading) raw = ofDescription limit raw :=
  ofDescription_min fun path hle hreached => h (.reading path hle hreached)

end Shape

namespace Validator

variable {stack : Stack} {limit : Int} {raw : Json}

/-- What the stack has no room for is not caught. -/
theorem compile_of_overflows (h : Shape.Overflows stack limit raw) :
    ∃ o log, compile stack limit raw = (.error (.overflow o), log) := by
  by_cases hreading : ∃ path, stack.reading ≤ limit ∧
      Shape.ofDescription stack.reading raw = .error ⟨path, .tooDeep⟩
  · obtain ⟨path, hle, hreached⟩ := hreading
    refine ⟨.reading, [], ?_⟩
    rw [compile, Int.min_eq_right hle, hreached]
    simp only [DescriptionError.toCompileError, if_neg (Int.not_lt.2 hle)]
  · -- otherwise the description is read as without a stack
    have hmin : Shape.ofDescription (min limit stack.reading) raw = Shape.ofDescription limit raw :=
      Shape.ofDescription_min fun path hle hreached => hreading ⟨path, hle, hreached⟩
    rw [compile, hmin]
    cases h with
    | reading path beyond reached => exact absurd ⟨path, beyond, reached⟩ hreading
    | refusing path kind refused beyond =>
        rw [refused]
        simp only [DescriptionError.toCompileError, if_pos beyond]
        exact ⟨.refusing, [], rfl⟩
    | showing shape described beyond =>
        rw [described]
        simp only [if_pos beyond]
        exact ⟨.showing, [], rfl⟩
    | building shape described beyond =>
        rw [described]
        by_cases hshowing : stack.showing < shape.showingCalls
        · simp only [if_pos hshowing]
          exact ⟨.showing, [], rfl⟩
        · simp only [if_neg hshowing, beyond]
          exact ⟨.building, [shape.described], rfl⟩

/-- With room on the stack a description with a defect is refused for it. -/
theorem compile_of_refused (h : ¬ Shape.Overflows stack limit raw) {e : DescriptionError}
    (he : Shape.ofDescription limit raw = .error e) :
    compile stack limit raw = (.error (.refused (e.toFailure limit)), []) := by
  rw [compile, Shape.ofDescription_min_of_not_overflows h, he]
  obtain ⟨path, defect⟩ := e
  cases defect with
  | tooDeep =>
      have hlt : limit < stack.reading := by
        by_contra hge
        have hle : (stack.reading : Int) ≤ limit := Int.not_lt.1 hge
        -- a node beyond the limit is beyond the room as well
        have hmin := Shape.ofDescription_min_of_not_overflows h
        rw [Int.min_eq_right hle, he] at hmin
        exact h (.reading path hle hmin)
      simp only [DescriptionError.toCompileError, if_pos hlt]
  | unsupportedKind kind =>
      have hroom : ¬ stack.refusing < path.length + kind.depth :=
        fun hbeyond => h (.refusing path kind he hbeyond)
      simp only [DescriptionError.toCompileError, if_neg hroom]
  | missingItems => rfl

/-- With room on the stack the names alone decide whether a shape has a validator. -/
theorem compile_of_described (h : ¬ Shape.Overflows stack limit raw) {shape : Shape}
    (hs : Shape.ofDescription limit raw = .ok shape) :
    compile stack limit raw = ((ofShape shape).mapError .unencodable, [shape.described]) := by
  have hshowing : ¬ stack.showing < shape.showingCalls := fun hb => h (.showing shape hs hb)
  have hbuilding : stack.builds shape = true := by
    by_contra hb
    exact h (.building shape hs (Bool.eq_false_iff.2 hb))
  rw [compile, Shape.ofDescription_min_of_not_overflows h, hs]
  simp only [if_neg hshowing, if_pos hbuilding]

theorem compile_of_encodable (h : ¬ Shape.Overflows stack limit raw) {shape : Shape}
    (hs : Shape.ofDescription limit raw = .ok shape) (hnames : shape.Encodable) :
    compile stack limit raw = (.ok ⟨shape⟩, [shape.described]) := by
  rw [compile_of_described h hs, Shape.ofShape_eq_ok_iff.2 ⟨hnames, rfl⟩]
  rfl

/-- A validator comes of a description for which there is room and whose shape has encodable names
only. -/
theorem compile_eq_ok_iff {validator : Validator} :
    (compile stack limit raw).1 = .ok validator ↔
      ¬ Shape.Overflows stack limit raw ∧
        ∃ shape, Shape.ofDescription limit raw = .ok shape ∧ shape.Encodable ∧
          validator = ⟨shape⟩ := by
  by_cases h : Shape.Overflows stack limit raw
  · obtain ⟨o, log, hcompile⟩ := compile_of_overflows h
    simp [hcompile, h]
  · cases hs : Shape.ofDescription limit raw with
    | error e => simp [compile_of_refused h hs]
    | ok shape =>
        simp [compile_of_described h hs, h, Results.mapError_eq_ok_iff, Shape.ofShape_eq_ok_iff]

end Validator

namespace Shape

/-! ## Flat descriptions -/

/-- An object takes no more than five calls for each step of its depth. -/
theorem showingCalls_le (s : Shape) : s.showingCalls ≤ 5 * s.depth + 5 := by
  have hfields : ∀ {fields : List (Text × Shape)},
      (∀ f ∈ fields, f.2.showingCalls ≤ 5 * f.2.depth + 5) →
      showingCallsOfFields fields ≤ 5 * depthOfFields fields := by
    intro fields ih
    induction fields with
    | nil => exact Nat.le_refl _
    | cons f rest ihrest =>
        obtain ⟨k, s⟩ := f
        have hs : s.showingCalls ≤ 5 * s.depth + 5 := ih (k, s) (by simp)
        have hrest := ihrest fun g hg => ih g (List.mem_cons_of_mem _ hg)
        simp only [showingCallsOfFields, depthOfFields]
        omega
  induction s with
  | leaf kind => simp [showingCalls, depth]
  | array item ih =>
      rw [showingCalls, depth]
      omega
  | object fields ih =>
      rw [showingCalls, depth]
      exact Nat.add_le_add_right (hfields ih) 5

end Shape

namespace Json

theorem exists_of_mem_nodesOfFields {fields : List (Text × Json)} {n : Node}
    (h : n ∈ nodesOfFields fields) : ∃ f ∈ fields, ∃ m ∈ f.2.nodes, m.under f.1 = n := by
  induction fields with
  | nil => cases h
  | cons f rest ih =>
      obtain ⟨k, v⟩ := f
      rw [nodesOfFields] at h
      rcases List.mem_append.1 h with h | h
      · split at h
        · cases h
        · obtain ⟨m, hm, rfl⟩ := List.mem_map.1 h
          exact ⟨(k, v), by simp, m, hm, rfl⟩
      · obtain ⟨f, hf, hnode⟩ := ih h
        exact ⟨f, List.mem_cons_of_mem _ hf, hnode⟩

theorem exists_of_mem_nodesOfItems {fields : List (Text × Json)} {n : Node}
    (h : n ∈ nodesOfItems fields) : ∃ f ∈ fields, ∃ m ∈ f.2.nodes, m.under f.1 = n := by
  rw [Shape.nodesOfItems_eq] at h
  cases hv : fields.lookup itemsKey with
  | none => simp [hv] at h
  | some v =>
      rw [hv] at h
      obtain ⟨m, hm, rfl⟩ := List.mem_map.1 h
      exact ⟨_, Fields.mem_of_lookup_eq_some hv, m, hm, rfl⟩

/-- A node and what it holds stand within the depth of the description. -/
theorem length_path_add_depth_le {raw : Json} {n : Node} (h : n ∈ raw.nodes) :
    n.path.length + n.raw.depth ≤ raw.depth := by
  induction raw generalizing n with
  | null | bool | number | string | array =>
      rw [nodes] at h
      · cases List.mem_singleton.1 h
        exact Nat.le_of_eq (Nat.zero_add _)
      all_goals exact fun _ heq => by cases heq
  | object fields ih =>
      have hbelow : (∃ f ∈ fields, ∃ m ∈ f.2.nodes, m.under f.1 = n) →
          n.path.length + n.raw.depth ≤ (Json.object fields).depth := by
        rintro ⟨f, hf, m, hm, rfl⟩
        have hm := ih f hf hm
        have hfield := depthOfFields_le_iff.1 (Nat.le_refl _) f hf
        rw [depth]
        simp only [Node.under, List.length_cons]
        omega
      rw [nodes] at h
      rcases List.mem_cons.1 h with rfl | h
      · exact Nat.le_of_eq (Nat.zero_add _)
      · split at h
        · exact hbelow (exists_of_mem_nodesOfItems h)
        · exact hbelow (exists_of_mem_nodesOfFields h)
        · cases h

/-- The kind that a description names is no deeper than the description. -/
theorem depth_describedKind_le (raw : Json) : raw.describedKind.depth ≤ raw.depth := by
  cases raw with
  | object fields =>
      cases htype : fields.lookup typeKey with
      | none => simp [describedKind, htype, depth]
      | some v =>
          have hfield : v.depth + 1 ≤ depthOfFields fields :=
            depthOfFields_le_iff.1 (Nat.le_refl _) _ (Fields.mem_of_lookup_eq_some htype)
          simp only [describedKind, htype, Option.getD_some]
          rw [depth]
          omega
  | null | bool | number | string | array => exact Nat.zero_le _

end Json

namespace Shape

variable {stack : Stack} {limit : Int} {raw : Json}

/-- A kind that is refused stands within the depth of the description. -/
theorem length_path_add_depth_kind_le {path : List Text} {kind : Json}
    (h : ofDescription limit raw = .error ⟨path, .unsupportedKind kind⟩) :
    path.length + kind.depth ≤ raw.depth := by
  obtain ⟨before, n, after, hnodes, hn, -⟩ := describe_eq_error_iff.1 h
  have hmem : n ∈ raw.nodes := by simp [hnodes]
  obtain ⟨defect, hdefect, hpath⟩ := Option.map_eq_some_iff.1 hn
  cases hpath
  have hkind : kind = n.raw.describedKind := by
    rw [Node.defect?] at hdefect
    split at hdefect
    · cases hdefect
    · split at hdefect
      · cases hdefect
        rfl
      · split at hdefect <;> cases hdefect
      · cases hdefect
  have hnode := Json.length_path_add_depth_le hmem
  have hle := n.raw.depth_describedKind_le
  rw [hkind]
  omega

/-- There is room for a description that is flat enough, whatever its limit. -/
theorem not_overflows_of_depth_le (hreading : raw.depth ≤ stack.reading)
    (hrefusing : raw.depth ≤ stack.refusing) (hshowing : 5 * raw.depth + 5 ≤ stack.showing)
    (hbuilds : ∀ shape, stack.builds shape = true) : ¬ Overflows stack limit raw := by
  rintro (⟨path, -, hreached⟩ | ⟨path, kind, hrefused, hbeyond⟩ | ⟨shape, hs, hbeyond⟩ |
    ⟨shape, -, hbeyond⟩)
  · exact not_tooDeep_of_depth_le (Int.ofNat_le.2 hreading) (tooDeep_iff.2 ⟨_, hreached, rfl⟩)
  · have hle := length_path_add_depth_kind_le hrefused
    omega
  · -- the shape is described under the depth of the description as well, so it is no deeper
    have hs : ofDescription raw.depth raw = .ok shape := by
      have hflat : ¬ TooDeep raw.depth raw := not_tooDeep_of_depth_le (Int.le_refl _)
      rcases Int.le_total limit raw.depth with hle | hle
      · have hsame := describe_of_le hle fun hdeep => by
          obtain ⟨e, he, -⟩ := tooDeep_iff.1 hdeep
          cases hs.symm.trans he
        exact hsame.trans hs
      · exact (describe_of_le hle hflat).symm.trans hs
    have hdepth := ((describe_eq_ok_iff _ _ _).1 hs).2
    have hcalls := shape.showingCalls_le
    omega
  · cases (hbuilds shape).symm.trans hbeyond

end Shape

/-! ## Nested descriptions -/

namespace Json

/-- So many objects in each other around a text, each with one field. -/
def nest (key : Text) : Nat → Json
  | 0 => .string []
  | n + 1 => .object [(key, nest key n)]

theorem every_nest {p : Traits} {key : Text} (hstring : p.string []) (hnames : p.names [key])
    (n : Nat) : (nest key n).Every p := by
  induction n with
  | zero => exact .string [] hstring
  | succ n ih => exact .object _ hnames (by simpa using ih)

theorem height_nest (key : Text) (n : Nat) : (nest key n).height = n := by
  induction n with
  | zero => rfl
  | succ n ih => rw [nest, height, heightOfFields, heightOfFields, ih, Nat.max_zero]

end Json

namespace Shape

variable {stack : Stack} {limit : Int}

/-- The shape of so many objects in each other. -/
def nested (key : Text) : Nat → Shape
  | 0 => .leaf .string
  | n + 1 => .object [(key, nested key n)]

theorem describe_nest {key : Text} (hkey : key ≠ typeKey) :
    ∀ {n : Nat} {room : Int}, (n : Int) ≤ room →
      describe room (Json.nest key n) = .ok (nested key n) := by
  intro n
  induction n with
  | zero =>
      intro room hroom
      rw [Json.nest, describe, if_neg (by omega)]
      rfl
  | succ n ih =>
      intro room hroom
      have hinner : describe (room - 1) (Json.nest key n) = .ok (nested key n) := ih (by omega)
      have hkind : Kind.ofJson? (Json.describedKind (.object [(key, Json.nest key n)])) =
          some .object := by
        have hne : (typeKey == key) = false := beq_eq_false_iff_ne.2 hkey.symm
        rw [Json.describedKind, List.lookup_cons, hne]
        rfl
      rw [Json.nest, describe, if_neg (by omega), hkind]
      dsimp only
      rw [describeFields, if_neg hkey, hinner]
      rfl

theorem showingCalls_nested (key : Text) (n : Nat) : (nested key n).showingCalls = 5 * n + 4 := by
  induction n with
  | zero => rfl
  | succ n ih =>
      rw [nested, showingCalls, showingCallsOfFields, showingCallsOfFields, ih]
      omega

/-- Objects that are nested deeply enough have a shape that cannot be shown, although the limit lets
them through. -/
theorem overflows_nest {key : Text} (hkey : key ≠ typeKey) {n : Nat} (hlimit : (n : Int) ≤ limit)
    (hdeep : stack.showing < 5 * n + 4) : Overflows stack limit (Json.nest key n) :=
  .showing _ (describe_nest hkey hlimit) (by rwa [showingCalls_nested])

end Shape

end ShapedJson
