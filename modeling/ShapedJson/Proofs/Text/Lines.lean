import Mathlib.Data.List.Chain
import ShapedJson.Text.Basic

/-!
# Lines

A text whose lines all have something on them has no place for a blank line.  So a blank line in
front of such a text is the last one, and two texts that are equal and are split at their last
blank lines are split in the same place.
-/

namespace ShapedJson.Text

/-- What ends a line. -/
def lineBreak : CodePoint := '\n'

variable {s t : Text}

/-- Whether no line is blank: no two line breaks stand side by side, with one before the text and
one after it. -/
def Lined (t : Text) : Prop :=
  (lineBreak :: (t ++ [lineBreak])).IsChain fun c d => ¬ (c = lineBreak ∧ d = lineBreak)

theorem not_lined_nil : ¬ Lined [] := by
  simp [Lined]

/-- A line break stands between lines. -/
theorem lined_append_break_iff : Lined (s ++ lineBreak :: t) ↔ Lined s ∧ Lined t := by
  unfold Lined
  rw [List.append_assoc, List.cons_append, List.isChain_cons_split]

theorem not_lined_break_cons : ¬ Lined (lineBreak :: t) := by
  intro h
  exact not_lined_nil (lined_append_break_iff.1 (List.nil_append (lineBreak :: t) ▸ h)).1

theorem lined_cons {c : CodePoint} (hc : c ≠ lineBreak) (ht : t ≠ [] → Lined t) :
    Lined (c :: t) := by
  cases t with
  | nil => simp [Lined, hc]
  | cons d t =>
      have ht := ht (List.cons_ne_nil d t)
      simp only [Lined, List.cons_append, List.isChain_cons_cons] at ht ⊢
      exact ⟨fun h => hc h.2, fun h => hc h.1, ht.2⟩

/-- A text without line breaks is one line, unless nothing is on it. -/
theorem lined_of_unbroken (hne : t ≠ []) (h : lineBreak ∉ t) : Lined t := by
  induction t with
  | nil => exact absurd rfl hne
  | cons c t ih =>
      obtain ⟨hc, ht⟩ := not_or.1 (mt List.mem_cons.2 h)
      exact lined_cons (Ne.symm hc) fun hne => ih hne ht

theorem Lined.append (hs : Lined s) (ht : Lined t) : Lined (s ++ t) := by
  have hs : List.IsChain _ (lineBreak :: s ++ [lineBreak]) := hs
  obtain ⟨hleft, -, hlast⟩ := List.isChain_append.1 hs
  have hsplit : lineBreak :: (s ++ t ++ [lineBreak]) = lineBreak :: s ++ (t ++ [lineBreak]) := by
    simp
  rw [Lined, hsplit]
  -- the first text does not end with a line break, since one follows it
  refine hleft.append ht.tail fun c hc d hd => ?_
  rintro ⟨rfl, -⟩
  exact hlast _ hc _ rfl ⟨rfl, rfl⟩

theorem Lined.unbroken_append (ht : Lined t) (h : lineBreak ∉ s) : Lined (s ++ t) := by
  cases s with
  | nil => exact ht
  | cons c s => exact (lined_of_unbroken (List.cons_ne_nil c s) h).append ht

/-- Texts that are split at a blank line are split in the same place, when no other blank line
follows. -/
theorem eq_of_append_blank_eq {a b c d : Text} (hb : Lined b) (hd : Lined d)
    (h : a ++ lineBreak :: lineBreak :: b = c ++ lineBreak :: lineBreak :: d) :
    a = c ∧ b = d := by
  -- a blank line that comes later would stand where lines with something on them are
  have hlater : ∀ {x y z : Text}, Lined z →
      lineBreak :: lineBreak :: z = x ++ lineBreak :: lineBreak :: y → x = [] := by
    intro x y z hz heq
    match x with
    | [] => rfl
    | [e] =>
        obtain ⟨-, rfl⟩ : _ ∧ z = lineBreak :: y := by simpa using heq
        exact absurd hz not_lined_break_cons
    | e :: e' :: x =>
        obtain ⟨-, -, rfl⟩ : _ ∧ _ ∧ z = x ++ lineBreak :: lineBreak :: y := by simpa using heq
        exact absurd (lined_append_break_iff.1 hz).2 not_lined_break_cons
  rcases List.append_eq_append_iff.1 h with ⟨x, rfl, heq⟩ | ⟨x, rfl, heq⟩
  · obtain rfl := hlater hb heq
    simpa using heq
  · obtain rfl := hlater hd heq
    simpa using heq.symm

end ShapedJson.Text
