import ShapedJson.Proofs.Answer.Decoding
import ShapedJson.Proofs.Answer.Fences
import ShapedJson.Proofs.Generation.Attempts

/-!
# Answers that are cut off

An answer that is decoded to an array or an object is not decoded when anything is missing at its
end, padding aside.  What is left of the container is no value, and the closing mark of a fence is
not found before the container has ended: marks inside of strings leave the body without its end.
-/

namespace ShapedJson

namespace Answer

open Json (SpellsValue)

variable {stripFences : Bool} {raw cut rest inner other : Text} {nesting : Nat} {v w : Json}

/-- How an answer holds the text of its value: alone, or between the marks of a fence. -/
inductive Holds (raw : Text) (v : Json) : Prop
  | bare (value : SpellsValue rules rules.nestingLimit raw.trim v)
  | fenced {inner : Text} (marks : raw.trim = fenceMark ++ (inner ++ fenceMark))
      (value : SpellsValue rules rules.nestingLimit (skipTag inner).trim v)

theorem holds_of_decode (h : decode stripFences raw = .ok v) : Holds raw v := by
  have hvalue := (Json.read_eq_ok_iff.1 (decode_eq_ok_iff.1 h)).spellsValue_trim
  cases stripFences with
  | false => exact .bare hvalue
  | true =>
      change SpellsValue rules rules.nestingLimit (stripFence raw).trim v at hvalue
      by_cases hfenced : ∃ inner, raw.trim = fenceMark ++ (inner ++ fenceMark)
      · obtain ⟨inner, hmarks⟩ := hfenced
        rw [stripFence_of_fenced hmarks, Text.trim_trim] at hvalue
        exact .fenced hmarks hvalue
      · rw [stripFence_of_not_fenced (not_exists.1 hfenced), Text.trim_trim] at hvalue
        exact .bare hvalue

/-- What trimming leaves of an answer that holds a value is no padding. -/
theorem Holds.not_isPadding (h : Holds raw v) : ¬ raw.IsPadding := by
  intro hpadding
  have hnil : raw.trim = [] := Text.trim_eq_nil_iff.2 hpadding
  cases h with
  | bare value =>
      obtain ⟨c, tail, hcons, -⟩ := value.starts
      rw [hnil] at hcons
      cases hcons
  | fenced marks value =>
      rw [hnil] at marks
      cases marks

/-- The body of a fence that holds a container does not end before the fence does. -/
theorem eq_nil_of_fenced_append (hv : v.IsContainer)
    (value : SpellsValue rules nesting (skipTag inner).trim v)
    (value' : SpellsValue rules nesting (skipTag other).trim w)
    (h : inner ++ fenceMark = other ++ (fenceMark ++ rest)) : rest = [] := by
  -- the tag is the same for both, and so is the padding before the two values
  have htags : skipTag inner ++ fenceMark = skipTag other ++ (fenceMark ++ rest) := by
    rw [← skipTag_concat_fenceMark, h, skipTag_append_fenceMark]
  obtain ⟨before, after, hbefore, hafter, hinner⟩ := Text.exists_eq_append_trim (skipTag inner)
  obtain ⟨before', after', hbefore', hafter', hother⟩ := Text.exists_eq_append_trim (skipTag other)
  rw [hinner, hother] at htags
  simp only [List.append_assoc] at htags
  obtain ⟨-, hvalues⟩ := Text.append_cancel_padding hbefore hbefore' (value.isFlush.append _)
    (value'.isFlush.append _) htags
  -- the container is the value of both, so only the two ends of the fence are left
  obtain ⟨hsame, -⟩ := value.eq_of_append_eq hv value' hvalues
  rw [hsame] at hvalues
  have hmark : fenceMark.IsFlush := ⟨_, _, rfl, by decide⟩
  obtain ⟨-, hmarks⟩ := Text.append_cancel_padding hafter hafter' hmark (hmark.append rest)
    (List.append_cancel_left hvalues)
  exact List.self_eq_append_right.1 hmarks

/-- An answer that holds a container has no proper start that holds a value, padding at its end
aside. -/
theorem Holds.eq_nil_of_append (h : Holds raw v) (hv : v.IsContainer) (hcut : Holds cut w)
    (heq : cut ++ rest = raw.trimEnd) : rest = [] := by
  obtain ⟨lead, hlead, hraw⟩ := Text.exists_trimEnd_eq_append_trim h.not_isPadding
  obtain ⟨before, after, hbefore, hafter, hsplit⟩ := Text.exists_eq_append_trim cut
  have htrim : raw.trim = cut.trim ++ (after ++ rest) := by
    rw [hraw, hsplit] at heq
    simp only [List.append_assoc] at heq
    exact (Text.append_cancel_padding hbefore hlead
      ((Text.isTrimmed_trim hcut.not_isPadding).head.append _)
      (Text.isTrimmed_trim h.not_isPadding).head heq).2.symm
  cases h with
  | bare value =>
      cases hcut with
      | bare value' =>
          have hself : raw.trim ++ [] = cut.trim ++ (after ++ rest) := by
            rw [List.append_nil, htrim]
          obtain ⟨hsame, -⟩ := value.eq_of_append_eq hv value' hself
          rw [hsame] at hself
          exact (List.append_eq_nil_iff.1 (List.append_cancel_left hself).symm).2
      | fenced marks value' =>
          rw [marks, List.append_assoc] at htrim
          exact absurd ((List.append_nil _).trans htrim) (append_ne_fenceMark_append value)
  | @fenced inner marks value =>
      rw [marks] at htrim
      cases hcut with
      | bare value' => exact absurd htrim.symm (append_ne_fenceMark_append value')
      | @fenced other marks' value' =>
          rw [marks'] at htrim
          simp only [List.append_assoc] at htrim
          have hrest := eq_nil_of_fenced_append hv value value' (List.append_cancel_left htrim)
          exact (List.append_eq_nil_iff.1 hrest).2

/-- No part of an answer that is decoded to an array or an object is decoded when it lacks
something at the end other than padding, with or without fences.  Any attempt to which such a part
comes fails for it, with the whole of the part and a reason. -/
theorem truncated_container_fails (h : decode stripFences raw = .ok v) (hv : v.IsContainer)
    (hcut : cut <+: raw.trimEnd) (hproper : cut ≠ raw.trimEnd) :
    ∃ reason, decode stripFences cut = .error reason ∧
      ∀ {σ : Type} (g : Generator σ) (patience : Patience) (messages : List Message)
        (validator : Validator) (number : Nat) (state : σ) (a : Attempt),
        (g.attempt ⟨patience, stripFences⟩ messages validator number state).1 = .ended a →
        a.raw = some cut → a.result = .error (.undecodable cut reason) := by
  obtain ⟨rest, hrest⟩ := hcut
  cases hdecode : decode stripFences cut with
  | ok w =>
      have hnil := (holds_of_decode h).eq_nil_of_append hv (holds_of_decode hdecode) hrest
      rw [hnil, List.append_nil] at hrest
      exact absurd hrest hproper
  | error reason =>
      refine ⟨reason, rfl, fun g patience messages validator number state a ha hraw => ?_⟩
      rw [g.result_of_attempt _ _ _ _ _ ha hraw, Validator.judge, hdecode]

/-- A fence around an object, cut off after the three marks inside of a string. -/
theorem truncated_container_fails_at_inner_marks :
    let v : Json := .object [(text "a", .string (text "```"))]
    let raw := text "```json\n\x7b\"a\":\"```\"\x7d\n```"
    let cut := text "```json\n\x7b\"a\":\"```"
    decode true raw = .ok v ∧ v.IsContainer ∧ cut <+: raw.trimEnd ∧ cut ≠ raw.trimEnd ∧
      fenceMark <:+ cut ∧ ∃ reason, decode true cut = .error reason ∧
        ((Generator.ofSequence fun _ => .text cut).attempt ⟨.unlimited, true⟩ [] ⟨.leaf .string⟩ 1
          .start).1 = .ended ⟨1, some cut, .error (.undecodable cut reason)⟩ := by
  intro v raw cut
  have hbody : body true raw = v.write .compactUnicode 0 := by decide +kernel
  have hdecode : decode true raw = .ok v := by
    rw [decode_eq_ok_iff, hbody]
    exact Json.read_write_self (by decide) (by simp [Json.Regular, v, Fields.names])
      (by simp [Json.FloatFree, v])
  have htrim : cut ++ text "\"\x7d\n```" = raw.trimEnd := by decide +kernel
  have hcut : cut <+: raw.trimEnd := ⟨_, htrim⟩
  have hproper : cut ≠ raw.trimEnd := by decide +kernel
  have hmark : fenceMark <:+ cut := ⟨text "```json\n\x7b\"a\":\"", by decide +kernel⟩
  obtain ⟨reason, hreason, hattempts⟩ := truncated_container_fails hdecode trivial hcut hproper
  refine ⟨hdecode, trivial, hcut, hproper, hmark, reason, hreason, ?_⟩
  have hattempt := (Generator.ofSequence fun _ => .text cut).attempt_of_text
    ⟨.unlimited, true⟩ [] ⟨.leaf .string⟩ 1 .start rfl rfl
  have hresult := hattempts _ _ _ _ _ _ _ hattempt rfl
  rw [hattempt, ← hresult]

end Answer

end ShapedJson
