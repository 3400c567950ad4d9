import ShapedJson.Proofs.Answer.Fences
import ShapedJson.Proofs.Text.Patterns

/-!
# The pattern of a fence

An answer in a fence is described by a pattern: the mark, a tag, blanks and a line break, the body
as short as can be, a line break, blanks and the mark.  The pieces overlap, as blanks include line
breaks and the body may hold anything, and a matcher has to go back.  In a text without a line break
at its end the first way of every opening piece decides, so that the body is found by skipping the
tag and the blanks and then reading on to the first place that closes the fence.
-/

namespace ShapedJson.Answer

/-- An answer in a fence, with the body as the group.  In the usual notation the pattern is
^```(?:json|JSON)?\s*\n?([\s\S]*?)\n?\s*```$. -/
def fencePattern : Pattern where
  before := [.oneOf [fenceMark], .oneOf [text "json", text "JSON", []], .most CodePoint.isBlank,
    .oneOf [text "\n", []]]
  group := .fewest fun _ => true
  after := [.oneOf [text "\n", []], .most CodePoint.isBlank, .oneOf [fenceMark]]

variable {raw t b taken rest : Text} {piece : Piece} {before : List Piece}

/-- No line break is at the end of a part of the text that goes to its end. -/
theorem unbroken_of_suffix {s : Text} (hend : ¬ text "\n" <:+ t) (h : s <:+ t) :
    ¬ text "\n" <:+ s :=
  fun hbreak => hend (hbreak.trans h)

theorem unbroken_trim (raw : Text) : ¬ text "\n" <:+ raw.trim := by
  rintro ⟨front, hfront⟩
  by_cases hpadding : raw.IsPadding
  · rw [Text.trim_eq_nil_iff.2 hpadding] at hfront
    exact absurd (List.append_eq_nil_iff.1 hfront).2 (by decide)
  · -- the last code point of the text would be a blank
    obtain ⟨-, init, c, hlast, hc⟩ := Text.isTrimmed_trim hpadding
    obtain ⟨-, hsame⟩ := List.append_inj' (hfront.trans hlast) rfl
    rw [← (List.cons.inj hsame).1] at hc
    exact absurd hc (by decide)

/-- What the pieces after the body stand for: blanks and the closing mark. -/
theorem fit_after (hend : ¬ text "\n" <:+ t) : Piece.fit fencePattern.after t = closes t := by
  rw [Bool.eq_iff_iff, closes_eq_true_iff]
  simp only [fencePattern, Piece.fit_cons_iff, Piece.fit_nil_iff, Piece.Takes, List.mem_cons,
    List.not_mem_nil, or_false]
  constructor
  · rintro ⟨first, _, hfirst, rfl, blanks, _, hblanks, rfl, _, rest, rfl, rfl, rfl | rfl⟩
    · have hpadding : first.IsPadding := by
        rcases hfirst with rfl | rfl
        · exact Text.isPadding_singleton (by decide)
        · exact Text.isPadding_nil
      exact ⟨first ++ blanks, Text.isPadding_append.2 ⟨hpadding, hblanks⟩, by simp⟩
    · exact absurd ⟨first ++ (blanks ++ fenceMark), by simp⟩ hend
  · rintro ⟨padding, hpadding, rfl⟩
    exact ⟨[], _, .inr rfl, rfl, padding, _, hpadding, rfl, fenceMark, [], rfl,
      (List.append_nil _).symm, .inl rfl⟩

/-- The body is as short as can be before the end of the fence. -/
theorem groupFrom?_nil (hend : ¬ text "\n" <:+ t) :
    fencePattern.groupFrom? [] t = fencedBody? t := by
  induction t with
  | nil => rfl
  | cons c t ih =>
      have hrest := ih (unbroken_of_suffix hend (List.suffix_cons c t))
      have hruns : fencePattern.group.ways (c :: t) =
          ([], c :: t) :: (fencePattern.group.ways t).map fun way => (c :: way.1, way.2) := rfl
      rw [Pattern.groupFrom?] at hrest ⊢
      rw [fencedBody?, ← hrest, hruns, List.find?_cons, fit_after hend]
      cases closes (c :: t) with
      | true => rfl
      | false => simp [List.find?_map, Function.comp_def]

/-- Whatever is left to read before the body, a group is found only before a closing mark. -/
theorem fenceMark_suffix_of_groupFrom? (hend : ¬ text "\n" <:+ t)
    (h : fencePattern.groupFrom? before t = some b) : fenceMark <:+ t := by
  obtain ⟨left, hleft, hfit⟩ := Pattern.groupFrom?_sound h
  rw [fit_after (unbroken_of_suffix hend hleft)] at hfit
  obtain ⟨padding, -, rfl⟩ := closes_eq_true_iff.1 hfit
  exact (List.suffix_append padding fenceMark).trans hleft

theorem fencedBody?_ne_none (h : fenceMark <:+ t) : fencedBody? t ≠ none := by
  obtain ⟨inner, rfl⟩ := h
  obtain ⟨b, hb⟩ := exists_fencedBody? inner
  rw [hb]
  exact Option.some_ne_none b

/-- The first way of a piece decides when what it leaves is read to a body that is found whenever
the closing mark is there. -/
theorem groupFrom?_cons {s : Text} (hend : ¬ text "\n" <:+ t)
    (hfirst : (piece.ways t).head? = some (taken, rest))
    (hrest : fencePattern.groupFrom? before rest = fencedBody? s)
    (hmark : fenceMark <:+ t → fenceMark <:+ s) :
    fencePattern.groupFrom? (piece :: before) t = fencedBody? s := by
  rw [← hrest]
  refine Pattern.groupFrom?_cons_of_first hfirst fun way hway hnone => ?_
  cases hfound : fencePattern.groupFrom? before way.2 with
  | none => rfl
  | some b =>
      have hleft := Piece.suffix_of_mem_ways hway
      have hclosed := fenceMark_suffix_of_groupFrom? (unbroken_of_suffix hend hleft) hfound
      rw [hrest] at hnone
      exact absurd hnone (fencedBody?_ne_none (hmark (hclosed.trans hleft)))

theorem fenceMark_suffix_trimStart (h : fenceMark <:+ t) : fenceMark <:+ t.trimStart := by
  obtain ⟨inner, rfl⟩ := h
  exact ⟨Text.trimStart inner, (trimStart_concat_fenceMark inner).symm⟩

theorem fenceMark_suffix_skipTag (h : fenceMark <:+ t) : fenceMark <:+ skipTag t := by
  obtain ⟨inner, rfl⟩ := h
  exact ⟨skipTag inner, (skipTag_concat_fenceMark inner).symm⟩

/-- Once the blanks are skipped, no line break is left to skip. -/
theorem groupFrom?_break (hend : ¬ text "\n" <:+ t) :
    fencePattern.groupFrom? [.oneOf [text "\n", []]] t.trimStart = fencedBody? t.trimStart := by
  obtain ⟨padding, -, hsplit⟩ := Text.exists_eq_append_trimStart t
  have hstart : ¬ text "\n" <:+ t.trimStart := unbroken_of_suffix hend ⟨padding, hsplit.symm⟩
  have hnone : Text.after? (text "\n") t.trimStart = none := by
    refine Option.eq_none_iff_forall_ne_some.2 fun rest hrest => ?_
    have hblank := Text.isBlank_of_trimStart_eq_cons (Text.after?_eq_some_iff.1 hrest)
    exact absurd hblank (by decide)
  have hfirst : ((Piece.oneOf [text "\n", []]).ways t.trimStart).head? =
      some ([], t.trimStart) := by
    simp [Piece.ways, hnone, Text.after?]
  exact groupFrom?_cons hstart hfirst (groupFrom?_nil hstart) id

theorem groupFrom?_blanks (hend : ¬ text "\n" <:+ t) :
    fencePattern.groupFrom? [.most CodePoint.isBlank, .oneOf [text "\n", []]] t =
      fencedBody? t.trimStart := by
  obtain ⟨shorter, hruns⟩ := Piece.exists_runs_eq_concat CodePoint.isBlank t
  have hfirst : ((Piece.most CodePoint.isBlank).ways t).head? =
      some (t.takeWhile CodePoint.isBlank, t.trimStart) := by
    rw [Piece.ways, hruns, List.reverse_concat]
    rfl
  exact groupFrom?_cons hend hfirst (groupFrom?_break hend) fenceMark_suffix_trimStart

theorem groupFrom?_tag (hend : ¬ text "\n" <:+ t) :
    fencePattern.groupFrom? [.oneOf [text "json", text "JSON", []], .most CodePoint.isBlank,
      .oneOf [text "\n", []]] t = fencedBody? (skipTag t).trimStart := by
  have hfirst : ∃ tag, ((Piece.oneOf [text "json", text "JSON", []]).ways t).head? =
      some (tag, skipTag t) := by
    cases hsmall : Text.after? (text "json") t with
    | some after => exact ⟨text "json", by simp [Piece.ways, skipTag, hsmall]⟩
    | none =>
        cases hlarge : Text.after? (text "JSON") t with
        | some after => exact ⟨text "JSON", by simp [Piece.ways, skipTag, hsmall, hlarge]⟩
        | none => exact ⟨[], by simp [Piece.ways, skipTag, hsmall, hlarge, Text.after?]⟩
  obtain ⟨tag, htag⟩ := hfirst
  obtain ⟨_, -, hsplit⟩ := exists_tag_append_skipTag t
  have hskip : ¬ text "\n" <:+ skipTag t := unbroken_of_suffix hend ⟨_, hsplit.symm⟩
  exact groupFrom?_cons hend htag (groupFrom?_blanks hskip) fun hmark =>
    fenceMark_suffix_trimStart (fenceMark_suffix_skipTag hmark)

/-- The group is found without going back. -/
theorem group?_fencePattern (hend : ¬ text "\n" <:+ t) :
    fencePattern.group? t =
      (Text.after? fenceMark t).bind fun rest => fencedBody? (skipTag rest).trimStart := by
  change ((Piece.oneOf [fenceMark]).ways t).findSome? (fun way => fencePattern.groupFrom?
    [.oneOf [text "json", text "JSON", []], .most CodePoint.isBlank, .oneOf [text "\n", []]]
    way.2) = _
  cases hopen : Text.after? fenceMark t with
  | none => simp [Piece.ways, hopen]
  | some rest =>
      have hways : (Piece.oneOf [fenceMark]).ways t = [(fenceMark, rest)] := by
        simp [Piece.ways, hopen]
      have hsuffix : rest <:+ t := ⟨fenceMark, (Text.after?_eq_some_iff.1 hopen).symm⟩
      rw [hways, List.findSome?_singleton]
      exact groupFrom?_tag (unbroken_of_suffix hend hsuffix)

example : fencePattern.group? (text "```JSON \n\n a\n```\n \n```") = some (text "a\n```") := by
  decide

/-- What an answer is without a fence around it: the text between the marks without a tag that
directly follows the opening mark, or all of the answer. -/
inductive Unfences : Text → Text → Prop where
  | tagged {tag inner : Text} (htag : tag = text "json" ∨ tag = text "JSON") :
      Unfences (fenceMark ++ (tag ++ (inner ++ fenceMark))) inner.trim
  | untagged {inner : Text} (hsmall : ¬ text "json" <+: inner) (hlarge : ¬ text "JSON" <+: inner) :
      Unfences (fenceMark ++ (inner ++ fenceMark)) inner.trim
  | bare {t : Text} (h : ∀ inner, t ≠ fenceMark ++ (inner ++ fenceMark)) : Unfences t t

/-- The fence of an answer is stripped as the pattern says. -/
theorem stripFence_eq_group? (raw : Text) :
    stripFence raw = ((fencePattern.group? raw.trim).map Text.trim).getD raw.trim := by
  rw [group?_fencePattern (unbroken_trim raw), stripFence]
  cases Text.after? fenceMark raw.trim with
  | none => rfl
  | some rest =>
      simp only [Option.bind_some]
      cases fencedBody? (skipTag rest).trimStart <;> rfl

theorem skipTag_of_tagged {tag : Text} (h : tag = text "json" ∨ tag = text "JSON") (t : Text) :
    skipTag (tag ++ t) = t := by
  rcases h with rfl | rfl <;> rfl

theorem skipTag_of_untagged (hsmall : ¬ text "json" <+: t) (hlarge : ¬ text "JSON" <+: t) :
    skipTag t = t := by
  have hnone : ∀ word : Text, ¬ word <+: t → Text.after? word t = none := fun word hword =>
    Option.eq_none_iff_forall_ne_some.2 fun rest hrest =>
      hword ⟨rest, (Text.after?_eq_some_iff.1 hrest).symm⟩
  rw [skipTag, hnone _ hsmall, hnone _ hlarge]
  rfl

theorem unfences_of_fenced (inner : Text) :
    Unfences (fenceMark ++ (inner ++ fenceMark)) (skipTag inner).trim := by
  by_cases hsmall : text "json" <+: inner
  · obtain ⟨rest, rfl⟩ := hsmall
    rw [skipTag_of_tagged (.inl rfl), List.append_assoc]
    exact .tagged (.inl rfl)
  · by_cases hlarge : text "JSON" <+: inner
    · obtain ⟨rest, rfl⟩ := hlarge
      rw [skipTag_of_tagged (.inr rfl), List.append_assoc]
      exact .tagged (.inr rfl)
    · rw [skipTag_of_untagged hsmall hlarge]
      exact .untagged hsmall hlarge

theorem stripFence_eq_iff_unfences : stripFence raw = t ↔ Unfences raw.trim t := by
  constructor
  · rintro rfl
    by_cases hfenced : ∃ inner, raw.trim = fenceMark ++ (inner ++ fenceMark)
    · obtain ⟨inner, hinner⟩ := hfenced
      rw [stripFence_of_fenced hinner, hinner]
      exact unfences_of_fenced inner
    · have hbare := not_exists.1 hfenced
      rw [stripFence_of_not_fenced hbare]
      exact .bare hbare
  · intro h
    generalize hraw : raw.trim = s at h
    cases h with
    | @tagged tag inner htag =>
        rw [← List.append_assoc tag] at hraw
        rw [stripFence_of_fenced hraw, skipTag_of_tagged htag]
    | untagged hsmall hlarge => rw [stripFence_of_fenced hraw, skipTag_of_untagged hsmall hlarge]
    | bare hbare =>
        rw [← hraw] at hbare ⊢
        exact stripFence_of_not_fenced hbare

/-- The fence of an answer is stripped as the pattern says, and what the pattern finds, with all its
going back, has a closed form.  So a text on lines of its own in a fence comes out trimmed, whatever
marks and blanks there are in it. -/
theorem stripFence_closed_form :
    (∀ raw : Text,
      stripFence raw = ((fencePattern.group? raw.trim).map Text.trim).getD raw.trim) ∧
    (∀ raw t : Text, stripFence raw = t ↔ Unfences raw.trim t) ∧
    ∀ before after tag t : Text, before.IsPadding → after.IsPadding → tag ∈ tags →
      stripFence (before ++ (fenceMark ++ (tag ++ (text "\n" ++ (t ++ (text "\n" ++
        (fenceMark ++ after))))))) = t.trim :=
  ⟨stripFence_eq_group?, fun _ _ => stripFence_eq_iff_unfences,
    fun _ _ _ t hbefore hafter htag => stripFence_wrapped hbefore hafter htag t⟩

/-- Seven backticks in a row are a fence around one, five are none, and a fence in a fence is
kept. -/
theorem stripFence_closed_form_of_many_marks :
    stripFence (text "```````") = text "`" ∧ stripFence (text " `````\n") = text "`````" ∧
      stripFence (text "\t\n```JSON\n\n```json\n[1]\n```` \n``` ") =
        text "```json\n[1]\n````" := by
  obtain ⟨-, hclosed, hwrapped⟩ := stripFence_closed_form
  have hone : Unfences (fenceMark ++ (text "`" ++ fenceMark)) (text "`").trim :=
    .untagged (by decide) (by decide)
  have hnone : Unfences (text "`````") (text "`````") := by
    refine .bare fun inner heq => ?_
    -- two marks are longer than the text
    have hlength := congrArg List.length heq
    have hfive : (text "`````").length = 5 := by decide
    simp only [hfive, List.length_append, fenceMark, List.length_replicate] at hlength
    omega
  have hspace : Text.IsPadding (text "\t\n") := List.all_eq_true.1 rfl
  have hblank : Text.IsPadding (text " ") := List.all_eq_true.1 rfl
  exact ⟨(hclosed _ _).2 hone, (hclosed _ _).2 hnone,
    hwrapped _ _ (text "JSON") (text "\n```json\n[1]\n```` ") hspace hblank (by decide)⟩

end ShapedJson.Answer
