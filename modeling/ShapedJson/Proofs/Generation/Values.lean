import ShapedJson.Proofs.Answer.Decoding
import ShapedJson.Proofs.Generation.Replies
import ShapedJson.Proofs.Shape.Traits
import ShapedJson.Proofs.Shape.Validation

/-!
# Values that are given

A reply gives the projection of what is decoded from it.  So what is given is finite, it keeps the
bounds for answers, and it has no surrogates but those of the decoded value.
-/

namespace ShapedJson.Reply.Gives

variable {rules : AttemptRules} {shape : Shape} {reply : Reply} {v : Json}

theorem exists_project (h : reply.Gives rules ⟨shape⟩ v) :
    ∃ raw decoded, reply = .text raw ∧ Answer.decode rules.stripFences raw = .ok decoded ∧
      shape.Conforms decoded ∧ v = shape.project decoded := by
  obtain ⟨raw, decoded, hraw, hdecoded, hcheck⟩ := h
  rw [Validator.check_eq] at hcheck
  obtain ⟨hconforms, hproject⟩ := (shape.check_eq_ok_iff decoded v).1 hcheck
  exact ⟨raw, decoded, hraw, hdecoded, hconforms, hproject⟩

theorem isFinite (h : reply.Gives rules ⟨shape⟩ v) : v.isFinite = true := by
  obtain ⟨raw, decoded, -, -, hconforms, rfl⟩ := h.exists_project
  exact Shape.isFinite_project decoded hconforms

theorem encodable (h : reply.Gives rules ⟨shape⟩ v) (hshape : shape.Encodable)
    (hdecoded : ∀ raw w, reply = .text raw → Answer.decode rules.stripFences raw = .ok w →
      w.Encodable) : v.Encodable := by
  obtain ⟨raw, decoded, hraw, hd, hconforms, rfl⟩ := h.exists_project
  have hd := hdecoded raw decoded hraw hd
  unfold Json.Encodable at hd ⊢
  refine Shape.every_project ?_ decoded hconforms hd
  exact hshape

theorem regular (h : reply.Gives rules ⟨shape⟩ v) (hshape : shape.Distinct) :
    v.height ≤ Answer.rules.nestingLimit ∧ v.Regular Answer.rules.digitLimit := by
  obtain ⟨raw, decoded, -, hd, hconforms, rfl⟩ := h.exists_project
  obtain ⟨hheight, hregular⟩ := Answer.regular_of_decode hd
  refine ⟨Nat.le_trans (Shape.height_project_le decoded) hheight, ?_⟩
  unfold Json.Regular at hregular ⊢
  refine Shape.every_project ?_ decoded hconforms hregular
  exact hshape

end ShapedJson.Reply.Gives
