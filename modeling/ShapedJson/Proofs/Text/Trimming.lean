import Mathlib.Data.List.DropRight
import ShapedJson.Text.Blank

/-!
# Trimmed texts

Trimming takes padding off both ends of a text and leaves none there.  So padding put around a
text is taken off again, and two texts that begin alike after padding have the same padding.
-/

namespace ShapedJson.Text

/-- Nothing but code points that trimming takes off. -/
def IsPadding (t : Text) : Prop := ∀ c ∈ t, c.isBlank = true

variable {t padding before after : Text} {c : CodePoint}

theorem isPadding_nil : IsPadding [] := by
  simp [IsPadding]

theorem isPadding_singleton (h : c.isBlank = true) : IsPadding [c] := by
  simp [IsPadding, h]

theorem isPadding_append {s : Text} : IsPadding (s ++ t) ↔ s.IsPadding ∧ t.IsPadding :=
  List.forall_mem_append

/-! ## One end -/

theorem trimStart_append (h : padding.IsPadding) (t : Text) :
    trimStart (padding ++ t) = trimStart t :=
  List.dropWhile_append_of_pos h

theorem trimStart_cons (h : c.isBlank = false) (t : Text) : trimStart (c :: t) = c :: t := by
  simp [trimStart, h]

theorem trimStart_eq_nil_iff : trimStart t = [] ↔ t.IsPadding := by
  simp [trimStart, IsPadding, List.dropWhile_eq_nil_iff]

theorem exists_eq_append_trimStart (t : Text) :
    ∃ padding : Text, padding.IsPadding ∧ t = padding ++ trimStart t :=
  ⟨t.takeWhile CodePoint.isBlank, fun _ hc => List.mem_takeWhile_imp hc,
    List.takeWhile_append_dropWhile.symm⟩

theorem trimStart_trimStart (t : Text) : trimStart (trimStart t) = trimStart t :=
  List.dropWhile_idempotent _ t

/-- What is left at the start of a text is no blank. -/
theorem isBlank_of_trimStart_eq_cons {rest : Text} (h : trimStart t = c :: rest) :
    c.isBlank = false := by
  cases hc : c.isBlank with
  | false => rfl
  | true =>
      -- a second trimming would take the blank off, and it takes nothing off
      have hlength := congrArg List.length (trimStart_trimStart t)
      have hle := List.length_dropWhile_le CodePoint.isBlank rest
      rw [h, trimStart, List.dropWhile_cons_of_pos hc, List.length_cons] at hlength
      omega

/-- Padding behind a code point that is no blank is left alone. -/
theorem trimStart_append_cons (h : c.isBlank = false) (s t : Text) :
    trimStart (s ++ c :: t) = trimStart s ++ c :: t := by
  obtain ⟨padding, hpadding, hs⟩ := exists_eq_append_trimStart s
  conv_lhs => rw [hs]
  rw [List.append_assoc, trimStart_append hpadding]
  cases hleft : trimStart s with
  | nil => exact trimStart_cons h t
  | cons d rest => exact trimStart_cons (isBlank_of_trimStart_eq_cons hleft) _

theorem trimEnd_append (h : padding.IsPadding) (t : Text) : trimEnd (t ++ padding) = trimEnd t := by
  have hreverse : ∀ c ∈ padding.reverse, c.isBlank = true := fun c hc => h c (List.mem_reverse.1 hc)
  rw [trimEnd, trimEndOf, List.reverse_append, List.dropWhile_append_of_pos hreverse]
  rfl

theorem trimEnd_concat (h : c.isBlank = false) (t : Text) : trimEnd (t ++ [c]) = t ++ [c] :=
  List.rdropWhile_concat_neg _ t c (by simp [h])

theorem trimEnd_eq_nil_iff : trimEnd t = [] ↔ t.IsPadding :=
  List.rdropWhile_eq_nil_iff

theorem exists_eq_trimEnd_append (t : Text) :
    ∃ padding : Text, padding.IsPadding ∧ t = trimEnd t ++ padding :=
  ⟨t.rtakeWhile CodePoint.isBlank, fun _ hc => List.mem_rtakeWhile_imp hc,
    List.rdropWhile_append_rtakeWhile.symm⟩

/-- What is left at the end of a text is no blank. -/
theorem exists_trimEnd_eq_concat (h : ¬ t.IsPadding) :
    ∃ init c, trimEnd t = init ++ [c] ∧ c.isBlank = false := by
  have hne : trimEnd t ≠ [] := fun hnil => h (trimEnd_eq_nil_iff.1 hnil)
  refine ⟨(trimEnd t).dropLast, (trimEnd t).getLast hne,
    (List.dropLast_append_getLast hne).symm, ?_⟩
  exact eq_false_of_ne_true (List.rdropWhile_last_not CodePoint.isBlank t hne)

/-- The text starts with a code point that is no blank. -/
def IsFlush (t : Text) : Prop := ∃ c tail, t = c :: tail ∧ c.isBlank = false

theorem IsFlush.append {s : Text} (h : s.IsFlush) (t : Text) : (s ++ t).IsFlush := by
  obtain ⟨c, tail, rfl, hc⟩ := h
  exact ⟨c, tail ++ t, rfl, hc⟩

theorem IsFlush.trimStart_eq (h : t.IsFlush) : t.trimStart = t := by
  obtain ⟨c, tail, rfl, hc⟩ := h
  exact trimStart_cons hc tail

/-- Padding and what comes after it are told apart. -/
theorem append_cancel_padding {s : Text} (hbefore : before.IsPadding) (hafter : after.IsPadding)
    (hs : s.IsFlush) (ht : t.IsFlush) (h : before ++ s = after ++ t) : before = after ∧ s = t := by
  have htrim := congrArg trimStart h
  rw [trimStart_append hbefore, trimStart_append hafter, hs.trimStart_eq, ht.trimStart_eq] at htrim
  rw [htrim] at h
  exact ⟨List.append_cancel_right h, htrim⟩

/-! ## Both ends -/

/-- A text with no blank at either end. -/
structure IsTrimmed (t : Text) : Prop where
  head : t.IsFlush
  last : ∃ init c, t = init ++ [c] ∧ c.isBlank = false

theorem IsTrimmed.trim_eq (h : t.IsTrimmed) : t.trim = t := by
  obtain ⟨hhead, init, c, hlast, hc⟩ := h
  rw [trim, hhead.trimStart_eq, hlast, trimEnd_concat hc]

/-- Trimming leaves nothing only of padding. -/
theorem trim_eq_nil_iff : t.trim = [] ↔ t.IsPadding := by
  obtain ⟨padding, hpadding, ht⟩ := exists_eq_append_trimStart t
  rw [trim, trimEnd_eq_nil_iff]
  constructor
  · intro h
    rw [ht]
    exact isPadding_append.2 ⟨hpadding, h⟩
  · intro h
    rw [ht] at h
    exact (isPadding_append.1 h).2

theorem trim_trimStart (t : Text) : t.trimStart.trim = t.trim := by
  rw [trim, trimStart_trimStart, trim]

theorem exists_eq_append_trim (t : Text) :
    ∃ before after : Text, before.IsPadding ∧ after.IsPadding ∧ t = before ++ (t.trim ++ after) := by
  obtain ⟨before, hbefore, hstart⟩ := exists_eq_append_trimStart t
  obtain ⟨after, hafter, hend⟩ := exists_eq_trimEnd_append (trimStart t)
  exact ⟨before, after, hbefore, hafter, by rw [trim, ← hend, ← hstart]⟩

theorem isTrimmed_trim (h : ¬ t.IsPadding) : t.trim.IsTrimmed := by
  have hstart : ¬ (trimStart t).IsPadding := fun hp => h (trim_eq_nil_iff.1 (trimEnd_eq_nil_iff.2 hp))
  refine ⟨?_, exists_trimEnd_eq_concat hstart⟩
  obtain ⟨padding, -, hsplit⟩ := exists_eq_trimEnd_append (trimStart t)
  cases hhead : trim t with
  | nil => exact absurd (trim_eq_nil_iff.1 hhead) h
  | cons c tail =>
      -- the first code point is that of the text without its leading padding
      have hcons : trimStart t = c :: (tail ++ padding) := by
        rw [hsplit, ← List.cons_append, ← hhead, trim]
      exact ⟨c, tail, rfl, isBlank_of_trimStart_eq_cons hcons⟩

/-- Padding around a text is trimmed off with that of the text. -/
theorem trim_append (hbefore : before.IsPadding) (hafter : after.IsPadding) (t : Text) :
    (before ++ (t ++ after)).trim = t.trim := by
  rw [trim, trimStart_append hbefore, trim]
  by_cases ht : t.IsPadding
  · rw [trimStart_append ht, trimStart_eq_nil_iff.2 hafter, trimStart_eq_nil_iff.2 ht]
  · -- something is left of the text, and the padding after it stays behind that
    obtain ⟨padding, hpadding, hstart⟩ := exists_eq_append_trimStart t
    have hsplit : trimStart (t ++ after) = trimStart t ++ after := by
      cases hleft : trimStart t with
      | nil => exact absurd (trimStart_eq_nil_iff.1 hleft) ht
      | cons c rest =>
          rw [hleft] at hstart
          rw [hstart, List.append_assoc, trimStart_append hpadding, List.cons_append,
            trimStart_cons (isBlank_of_trimStart_eq_cons hleft)]
    rw [hsplit, trimEnd_append hafter]

theorem trim_trim (t : Text) : t.trim.trim = t.trim := by
  by_cases h : t.IsPadding
  · rw [trim_eq_nil_iff.2 h]
    rfl
  · exact (isTrimmed_trim h).trim_eq

/-- What is left at the end is what is left at both ends, after padding. -/
theorem exists_trimEnd_eq_append_trim (h : ¬ t.IsPadding) :
    ∃ padding : Text, padding.IsPadding ∧ t.trimEnd = padding ++ t.trim := by
  obtain ⟨before, after, hbefore, hafter, ht⟩ := exists_eq_append_trim t
  obtain ⟨-, init, c, hlast, hblank⟩ := isTrimmed_trim h
  refine ⟨before, hbefore, ?_⟩
  conv_lhs => rw [ht]
  rw [← List.append_assoc, trimEnd_append hafter, hlast, ← List.append_assoc,
    trimEnd_concat hblank]

end ShapedJson.Text
