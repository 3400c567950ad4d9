import ShapedJson.Proofs.Answer.Decoding
import ShapedJson.Proofs.Answer.Fences
import ShapedJson.Proofs.Generation.Attempts
import ShapedJson.Proofs.Generation.Replies
import ShapedJson.Proofs.Shape.Validation

/-!
# Answers that present a value

A value can be presented as its indented text, alone or in a fence that is stripped.  It is decoded
as it is from either, so an attempt to which such an answer comes succeeds exactly when the value
conforms to the shape.
-/

namespace ShapedJson

namespace Answer

/-- The ways to present a text: alone, or on lines of its own in a fence that is stripped. -/
inductive Presents (t : Text) : Bool → Text → Prop
  | bare (stripFences : Bool) : Presents t stripFences t
  | fenced {before after tag : Text} (paddingBefore : before.IsPadding)
      (paddingAfter : after.IsPadding) (known : tag ∈ tags) :
      Presents t true (before ++ (fenceMark ++ (tag ++ (text "\n" ++ (t ++ (text "\n" ++
        (fenceMark ++ after)))))))

variable {stripFences : Bool} {raw : Text} {v : Json}

/-- The body of an answer that presents the text of a value is the text. -/
theorem Presents.body_eq {readRules : ReadRules} {nesting : Nat} {t : Text}
    (h : Presents t stripFences raw) (value : Json.SpellsValue readRules nesting t v) :
    body stripFences raw = t := by
  have htrim : t.trim = t := value.isTrimmed.trim_eq
  cases h with
  | bare =>
      cases stripFences with
      | false => rfl
      | true =>
          -- marks inside of a string of the value open no fence
          have hvalue : Json.SpellsValue readRules nesting raw.trim v := by
            rw [htrim]
            exact value
          exact (stripFence_of_spellsValue hvalue).trans htrim
  | fenced paddingBefore paddingAfter known =>
      exact (stripFence_wrapped paddingBefore paddingAfter known t).trans htrim

/-- A value with whole numbers only is decoded from any answer that presents its indented text. -/
theorem decode_of_presents (hheight : v.height ≤ rules.nestingLimit)
    (hregular : v.Regular rules.digitLimit) (hfree : v.FloatFree) (hencodable : v.Encodable)
    (h : Presents v.indented stripFences raw) : decode stripFences raw = .ok v := by
  have value := Json.spellsValue_write_self JsonStyle.regular_indented hheight hregular hfree
    fun _ => hencodable
  rw [decode_eq_ok_iff, h.body_eq value]
  exact Json.read_eq_ok_iff.2 value.document

/-- No right answer is turned down.  An answer that presents the indented text of a value is
decoded to just this value, and an attempt to which it comes ends; it succeeds exactly when the
value conforms to the shape, with what the validator makes of the value. -/
theorem presented_value_accepted {shape : Shape} (names : shape.Encodable)
    (hheight : v.height ≤ rules.nestingLimit) (hregular : v.Regular rules.digitLimit)
    (hfree : v.FloatFree) (hencodable : v.Encodable) (h : Presents v.indented stripFences raw) :
    decode stripFences raw = .ok v ∧
      ∃ validator, Validator.ofShape shape = .ok validator ∧
        ∀ {σ : Type} (g : Generator σ) (patience : Patience) (messages : List Message)
          (number : Nat) (state : σ), patience.onset = .asks →
          (g.submit messages state).reply = .text raw →
          ∃ result, (g.attempt ⟨patience, stripFences⟩ messages validator number state).1 =
              .ended ⟨number, some raw, result⟩ ∧
            ((∃ r, result = .ok r) ↔ shape.Conforms v) ∧
            ∀ r, result = .ok r ↔ validator.check v = .ok r := by
  have hdecode := decode_of_presents hheight hregular hfree hencodable h
  refine ⟨hdecode, ⟨shape⟩, Shape.ofShape_eq_ok_iff.2 ⟨names, rfl⟩,
    fun g patience messages number state hasks hreply => ?_⟩
  have hresult : ∀ r, (⟨shape⟩ : Validator).judge stripFences raw = .ok r ↔
      (⟨shape⟩ : Validator).check v = .ok r := by
    intro r
    rw [Validator.judge, hdecode, Results.mapError_eq_ok_iff]
  refine ⟨_, g.attempt_of_text ⟨patience, stripFences⟩ messages ⟨shape⟩ number state hasks hreply,
    ?_, hresult⟩
  have hcheck : ∀ r, (⟨shape⟩ : Validator).check v = .ok r ↔ shape.Conforms v ∧ r = shape.project v :=
    fun r => by rw [Validator.check_eq, Shape.check_eq_ok_iff]
  simp only [hresult, hcheck, exists_and_left, exists_eq, and_true]

/-- A string with marks of a fence, a line break and a quote inside, in a fence with padding. -/
theorem presented_value_accepted_with_inner_marks :
    let shape : Shape := .object [(text "a", .leaf .string)]
    let v : Json := .object
      [(text "b", .array [.number (.whole (-20))]), (text "a", .string (text "```\n\""))]
    let raw := text " " ++ (fenceMark ++ (text "json" ++ (text "\n" ++ (v.indented ++
      (text "\n" ++ (fenceMark ++ text "\n"))))))
    decode true raw = .ok v ∧
      ∃ validator, Validator.ofShape shape = .ok validator ∧
        ((Generator.ofSequence fun _ => .text raw).attempt ⟨.unlimited, true⟩ [] validator 1
          .start).1 = .ended ⟨1, some raw, .ok (.object [(text "a", .string (text "```\n\""))])⟩ := by
  intro shape v raw
  have hnames : shape.Encodable := by simp [Shape.Encodable, Fields.names, shape]
  have hregular : v.Regular rules.digitLimit := by
    have hshort : (Number.whole (-20)).Short rules.digitLimit :=
      show (Text.ofNat 20).length ≤ 4300 by decide
    have hdistinct : (Fields.names [(text "b", ()), (text "a", ())]).Nodup := by decide
    exact .object _ hdistinct (by simp [hshort])
  have hfree : v.FloatFree := by simp [Json.FloatFree, v]
  have hencodable : v.Encodable := by
    have hnumber : (Json.number (.whole (-20))).Encodable := .number _ trivial
    simp [Json.encodable_object, Json.encodable_array, Json.encodable_string, hnumber, v]
  have hpresents : Presents v.indented true raw :=
    .fenced (Text.isPadding_singleton (by decide)) (Text.isPadding_singleton (by decide))
      (by simp [tags])
  obtain ⟨hdecode, validator, hshape, hattempts⟩ :=
    presented_value_accepted hnames (by decide) hregular hfree hencodable hpresents
  obtain ⟨result, hended, -, hresult⟩ := hattempts (Generator.ofSequence fun _ => .text raw)
    .unlimited [] 1 .start rfl rfl
  refine ⟨hdecode, validator, hshape, ?_⟩
  rw [hended, (hresult _).2]
  obtain ⟨-, rfl⟩ := Shape.ofShape_eq_ok_iff.1 hshape
  rfl

end Answer

end ShapedJson
