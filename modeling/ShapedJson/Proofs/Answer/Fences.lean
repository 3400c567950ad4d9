import ShapedJson.Proofs.Answer.Decoding
import ShapedJson.Proofs.Json.Extent

/-!
# Answers in fences

An answer is in a fence when, without the padding around it, it starts with the mark of a fence
and what follows the mark ends with it again.  The body of such an answer is what stands between
the two marks, without the tag and the padding; any other answer is its own body.  JSON text is in
no fence.
-/

namespace ShapedJson

theorem Text.after?_append_cons {word : Text} {c : CodePoint} (h : c ∉ word) (s t : Text) :
    after? word (s ++ c :: t) = (after? word s).map (· ++ c :: t) := by
  induction word generalizing s with
  | nil => rfl
  | cons d word ih =>
      obtain ⟨hd, hword⟩ := not_or.1 (fun hmem => h (List.mem_cons.2 hmem))
      cases s with
      | nil =>
          have hne : d ≠ c := fun e => hd e.symm
          simp [after?, hne]
      | cons e s =>
          rw [List.cons_append, after?, after?]
          split
          · exact ih hword s
          · rfl

namespace Answer

/-- The tags that the opening mark of a fence may have. -/
def tags : List Text := [[], text "json", text "JSON"]

variable {raw inner t b : Text}

/-- No value starts with the mark of a fence. -/
theorem append_ne_fenceMark_append {readRules : ReadRules} {nesting : Nat} {v : Json}
    {s rest rest' : Text} (h : Json.SpellsValue readRules nesting s v) :
    s ++ rest ≠ fenceMark ++ rest' := by
  intro heq
  obtain ⟨c, tail, rfl, hc⟩ := h.starts
  obtain rfl : c = ⟨96, by decide⟩ := (List.cons.inj heq).1
  rcases hc with (hc | hc) | hc <;> revert hc <;> decide

/-- An answer in a fence has no padding. -/
theorem isTrimmed_fenced (inner : Text) : (fenceMark ++ (inner ++ fenceMark)).IsTrimmed := by
  refine ⟨⟨_, _, rfl, by decide⟩, fenceMark ++ (inner ++ List.replicate 2 ⟨96, by decide⟩),
    ⟨96, by decide⟩, ?_, by decide⟩
  simp [fenceMark, List.replicate]

/-- A tag is skipped whatever follows the mark of a fence. -/
theorem skipTag_append_fenceMark (t rest : Text) :
    skipTag (t ++ (fenceMark ++ rest)) = skipTag t ++ (fenceMark ++ rest) := by
  have hcons : ∀ word : Text, (⟨96, by decide⟩ : CodePoint) ∉ word →
      Text.after? word (t ++ (fenceMark ++ rest)) =
        (Text.after? word t).map (· ++ (fenceMark ++ rest)) :=
    fun word h => Text.after?_append_cons h t _
  rw [skipTag, hcons _ (by decide), hcons _ (by decide), skipTag]
  cases Text.after? (text "json") t with
  | some after => rfl
  | none => cases Text.after? (text "JSON") t <;> rfl

theorem skipTag_concat_fenceMark (t : Text) :
    skipTag (t ++ fenceMark) = skipTag t ++ fenceMark := by
  simpa only [List.append_nil] using skipTag_append_fenceMark t []

theorem exists_tag_append_skipTag (t : Text) : ∃ tag ∈ tags, t = tag ++ skipTag t := by
  unfold skipTag
  cases hsmall : Text.after? (text "json") t with
  | some after => exact ⟨_, by simp [tags], Text.after?_eq_some_iff.1 hsmall⟩
  | none =>
      cases hlarge : Text.after? (text "JSON") t with
      | some after => exact ⟨_, by simp [tags], Text.after?_eq_some_iff.1 hlarge⟩
      | none => exact ⟨[], by simp [tags], rfl⟩

/-- A line break after a tag shows that the tag is a whole one. -/
theorem skipTag_tag_append {tag : Text} (h : tag ∈ tags) (t : Text) :
    skipTag (tag ++ (text "\n" ++ t)) = text "\n" ++ t := by
  simp only [tags, List.mem_cons, List.not_mem_nil, or_false] at h
  rcases h with rfl | rfl | rfl <;> rfl

theorem trimStart_concat_fenceMark (t : Text) :
    (t ++ fenceMark).trimStart = t.trimStart ++ fenceMark :=
  Text.trimStart_append_cons (by decide) t _

theorem closes_eq_true_iff :
    closes t = true ↔ ∃ padding : Text, padding.IsPadding ∧ t = padding ++ fenceMark := by
  rw [closes, beq_iff_eq]
  constructor
  · intro h
    obtain ⟨padding, hpadding, ht⟩ := Text.exists_eq_append_trimStart t
    exact ⟨padding, hpadding, by rw [← h]; exact ht⟩
  · rintro ⟨padding, hpadding, rfl⟩
    rw [Text.trimStart_append hpadding]
    rfl

/-- A fenced body is followed by padding and the closing mark. -/
theorem fencedBody?_sound (h : fencedBody? t = some b) :
    ∃ padding : Text, padding.IsPadding ∧ t = b ++ (padding ++ fenceMark) := by
  induction t generalizing b with
  | nil => cases h
  | cons c t ih =>
      rw [fencedBody?] at h
      split at h
      · rename_i hcloses
        cases h
        exact closes_eq_true_iff.1 hcloses
      · obtain ⟨b', hb', rfl⟩ := Option.map_eq_some_iff.1 h
        obtain ⟨padding, hpadding, rfl⟩ := ih hb'
        exact ⟨padding, hpadding, rfl⟩

/-- There is a fenced body before a mark at the end. -/
theorem exists_fencedBody? (t : Text) : ∃ b, fencedBody? (t ++ fenceMark) = some b := by
  induction t with
  | nil => exact ⟨[], rfl⟩
  | cons c t ih =>
      obtain ⟨b, hb⟩ := ih
      rw [List.cons_append, fencedBody?]
      split
      · exact ⟨[], rfl⟩
      · exact ⟨c :: b, by rw [hb]; rfl⟩

/-- The body of an answer in a fence: what stands between the marks, without tag and padding. -/
theorem stripFence_of_fenced (h : raw.trim = fenceMark ++ (inner ++ fenceMark)) :
    stripFence raw = (skipTag inner).trim := by
  have hopen : Text.after? fenceMark raw.trim = some (inner ++ fenceMark) :=
    Text.after?_eq_some_iff.2 h
  have hstart : (skipTag (inner ++ fenceMark)).trimStart =
      (skipTag inner).trimStart ++ fenceMark := by
    rw [skipTag_concat_fenceMark, trimStart_concat_fenceMark]
  obtain ⟨b, hb⟩ := exists_fencedBody? (skipTag inner).trimStart
  obtain ⟨padding, hpadding, hsplit⟩ := fencedBody?_sound hb
  rw [← List.append_assoc] at hsplit
  have hbody : (skipTag inner).trimStart = b ++ padding := List.append_cancel_right hsplit
  simp only [stripFence, hopen, hstart, hb]
  -- the padding before the closing mark is trimmed off as well
  rw [← Text.trim_trimStart (skipTag inner), hbody]
  exact (Text.trim_append Text.isPadding_nil hpadding b).symm

/-- An answer that is in no fence is its own body. -/
theorem stripFence_of_not_fenced (h : ∀ inner, raw.trim ≠ fenceMark ++ (inner ++ fenceMark)) :
    stripFence raw = raw.trim := by
  rw [stripFence]
  cases hopen : Text.after? fenceMark raw.trim with
  | none => simp only
  | some rest =>
      cases hbody : fencedBody? (skipTag rest).trimStart with
      | none => simp only [hbody]
      | some b =>
          -- a body would end with the closing mark, and so would what follows the opening one
          obtain ⟨padding, -, hclosed⟩ := fencedBody?_sound hbody
          obtain ⟨tag, -, hrest⟩ := exists_tag_append_skipTag rest
          obtain ⟨blanks, -, hstart⟩ := Text.exists_eq_append_trimStart (skipTag rest)
          refine absurd ?_ (h (tag ++ (blanks ++ (b ++ padding))))
          rw [Text.after?_eq_some_iff.1 hopen, hrest, hstart, hclosed]
          simp only [List.append_assoc]

/-- The text of a value is in no fence, with or without padding around. -/
theorem stripFence_of_spellsValue {readRules : ReadRules} {nesting : Nat} {v : Json}
    (h : Json.SpellsValue readRules nesting raw.trim v) : stripFence raw = raw.trim :=
  stripFence_of_not_fenced fun _ heq =>
    append_ne_fenceMark_append h ((List.append_nil _).trans heq)

/-- What is decoded as it is comes out the same when fences are stripped. -/
theorem decode_of_decode_false {v : Json} (h : decode false raw = .ok v) (stripFences : Bool) :
    decode stripFences raw = .ok v := by
  cases stripFences with
  | false => exact h
  | true =>
      -- only padding is stripped from JSON text, and what is left denotes the same value
      have hvalue : Json.SpellsValue rules rules.nestingLimit raw.trim v :=
        (Json.read_eq_ok_iff.1 (decode_eq_ok_iff.1 h)).spellsValue_trim
      have hbody : body true raw = raw.trim := stripFence_of_spellsValue hvalue
      rw [decode_eq_ok_iff, hbody]
      exact Json.read_eq_ok_iff.2 hvalue.document

/-- A text on lines of its own in a fence, with any padding around, is the body up to its own
padding. -/
theorem stripFence_wrapped {before after tag : Text} (hbefore : before.IsPadding)
    (hafter : after.IsPadding) (htag : tag ∈ tags) (t : Text) :
    stripFence (before ++ (fenceMark ++ (tag ++ (text "\n" ++ (t ++ (text "\n" ++
      (fenceMark ++ after))))))) = t.trim := by
  have hbreak : (text "\n").IsPadding := Text.isPadding_singleton (by decide)
  have htrim : (before ++ (fenceMark ++ (tag ++ (text "\n" ++ (t ++ (text "\n" ++
      (fenceMark ++ after))))))).trim =
      fenceMark ++ ((tag ++ (text "\n" ++ (t ++ text "\n"))) ++ fenceMark) := by
    have hsplit := Text.trim_append hbefore hafter
      (fenceMark ++ ((tag ++ (text "\n" ++ (t ++ text "\n"))) ++ fenceMark))
    rw [(isTrimmed_fenced _).trim_eq] at hsplit
    simpa only [List.append_assoc] using hsplit
  rw [stripFence_of_fenced htrim, skipTag_tag_append htag]
  exact Text.trim_append hbreak hbreak t

end Answer

end ShapedJson
