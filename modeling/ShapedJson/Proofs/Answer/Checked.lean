import ShapedJson.Proofs.Answer.Fences
import ShapedJson.Proofs.Generation.Replies
import ShapedJson.Proofs.Service.Responses
import ShapedJson.Proofs.Shape.Compilation
import ShapedJson.Proofs.Shape.Projections
import ShapedJson.Proofs.Shape.Validation

/-!
# Checked answers

Decoding lets a numeral that is too large through as an infinity, and it bounds the depth of an
answer by rules of its own.  What a validator makes of a decoded answer is bounded by the shape: it
is no deeper than the shape is, all its numbers are finite, and the validator leaves it as it is.
-/

namespace ShapedJson

namespace Validator

/-- The validator leaves the value as it is, the value is no deeper than the shape, and it holds no
number that could not be sent. -/
structure Settles (validator : Validator) (r : Json) : Prop where
  again : validator.check r = .ok r
  within : ∀ n w, r.HasPart n w → n ≤ validator.shape.depth
  finite : ∀ n x, r.HasPart n (.number (.real x)) → x.isFinite = true
  sent : ∀ status, Response.ofJson status r ≠ .error .notFinite

/-- What a validator accepts settles, when no object of its shape has two fields of one name. -/
theorem settles_of_check {validator : Validator} (distinct : validator.shape.Distinct) {v r : Json}
    (h : validator.check v = .ok r) : validator.Settles r := by
  obtain ⟨hv, rfl⟩ := check_eq_ok_iff.1 h
  refine ⟨?_, fun n w hpart => ?_, fun n x hpart => ?_, fun status => ?_⟩
  · exact check_eq_ok_iff.2
      ⟨Shape.conforms_project distinct hv, (Shape.project_project distinct hv).symm⟩
  · obtain ⟨t, -, ht, -, -⟩ := Shape.exists_part_of_hasPart_project hv hpart
    exact ht.le_depth
  · obtain ⟨t, u, -, hu, hx⟩ := Shape.exists_part_of_hasPart_project hv hpart
    have hfinite := Shape.isFinite_project u hu
    rw [← hx] at hfinite
    exact hfinite
  · exact Response.ofJson_ne_notFinite (Shape.isFinite_project v hv)

end Validator

namespace Answer

/-- A numeral alone is decoded to its value, even if that is an infinity. -/
theorem decode_numeral {t : Text} {n : Numeral} (h : n.Spells t)
    (hbound : n.isWhole = true → n.whole.length ≤ rules.digitLimit) (stripFences : Bool) :
    decode stripFences t = .ok (.number n.value) := by
  have hvalue : Json.SpellsValue rules rules.nestingLimit t (.number n.value) :=
    .scalar (.number h hbound)
  refine decode_of_decode_false ?_ stripFences
  exact decode_eq_ok_iff.2 (Json.read_eq_ok_iff.2 hvalue.document)

/-- Whatever the text of an answer, what the validator of a description makes of it settles, and the
shape is within the limit of the description.  Decoding alone gives infinities: every numeral that
is too large denotes one. -/
theorem judged_value_settles {stack : Stack} {limit : Int} {raw : Json} (distinct : raw.Distinct)
    {validator : Validator} (compiled : (Validator.compile stack limit raw).1 = .ok validator) :
    (validator.shape.depth : Int) ≤ limit ∧
      (∀ stripFences t r, validator.judge stripFences t = .ok r → validator.Settles r) ∧
      ∀ (stripFences : Bool) (t : Text) (n : Numeral) (negative : Bool), n.Spells t →
        n.value = .real (.infinity negative) →
        decode stripFences t = .ok (.number (.real (.infinity negative))) := by
  obtain ⟨-, shape, hshape, -, rfl⟩ := Validator.compile_eq_ok_iff.1 compiled
  refine ⟨((Shape.describe_eq_ok_iff _ _ _).1 hshape).2, fun stripFences t r hjudge => ?_,
    fun stripFences t n negative hspells hvalue => ?_⟩
  · obtain ⟨v, -, hcheck⟩ := Validator.judge_eq_ok_iff.1 hjudge
    exact Validator.settles_of_check (Shape.distinct_of_describe distinct hshape) hcheck
  · rw [← hvalue]
    refine decode_numeral hspells (fun hwhole => ?_) stripFences
    -- a whole number is no infinity
    rw [Numeral.value, if_pos hwhole] at hvalue
    cases hvalue

/-- An infinity stands deep in a field that is not declared. -/
theorem judged_value_settles_beside_infinity :
    let raw : Json := .object [(text "a", .object
      [(typeKey, .string Kind.array.name), (itemsKey, .int 0)])]
    let t := text "\x7b\"b\":[[[[1e999]]]],\"a\":[7,null]\x7d"
    let r : Json := .object [(text "a", .array [.int 7, .null])]
    ∃ validator, (Validator.compile .standard 2 raw).1 = .ok validator ∧ validator.shape.depth = 2 ∧
      validator.judge true t = .ok r ∧ validator.Settles r ∧
      decode true (text "1e999") = .ok (.number (.real (.infinity false))) := by
  intro raw t r
  have hdistinct : raw.Distinct := by
    have hnames : (Fields.names [(typeKey, ()), (itemsKey, ())]).Nodup := by decide
    have hfields : (Json.object [(typeKey, .string Kind.array.name), (itemsKey, .int 0)]).Every
        ⟨fun _ => True, fun _ => True, List.Nodup⟩ := .object _ hnames (by simp [Json.int])
    exact .object _ (by simp [Fields.names]) (by simp [hfields])
  have hcompiled : (Validator.compile .standard 2 raw).1 =
      .ok ⟨.object [(text "a", .array (.leaf .number))]⟩ := rfl
  obtain ⟨-, hsettles, hinfinite⟩ := judged_value_settles hdistinct hcompiled
  have hdecode : decode true (text "\x7b\"b\":[[[[1e999]]]],\"a\":[7,null]\x7d") =
      .ok (.object
        [(text "b", .array [.array [.array [.array [.number (.real (.infinity false))]]]]),
          (text "a", .array [.int 7, .null])]) := by decide +kernel
  have hjudge := Validator.judge_eq_ok_iff.2 ⟨_, hdecode, show
    Validator.check ⟨.object [(text "a", .array (.leaf .number))]⟩ _ = .ok r from rfl⟩
  have hdigits : ∀ t : Text, t.all CodePoint.isDigit = true → ∀ c ∈ t, c.isDigit = true :=
    fun _ => List.all_eq_true.1
  have hone : Numeral.Whole (text "1") := .positive (by decide) ⟨by decide, hdigits _ rfl⟩
  have htail : Numeral.Exponent (text "e999") (some (false, text "999")) :=
    .unsigned (.inl rfl) ⟨by decide, hdigits _ rfl⟩
  have hspells := @Numeral.Spells.parts false _ _ _ _ _ hone .none htail
  exact ⟨_, hcompiled, rfl, hjudge, hsettles true t r hjudge,
    hinfinite true _ _ false hspells rfl⟩

end Answer

end ShapedJson
