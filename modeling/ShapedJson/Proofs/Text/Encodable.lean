import Mathlib.Data.List.TakeWhile
import ShapedJson.Proofs.Text.Decimal
import ShapedJson.Text.Encodable

/-!
# Encodable texts

A text is encodable when no surrogate stands in it.  An encoder complains about exactly the
other texts.
-/

namespace ShapedJson.Text

/-- A text without surrogates. -/
def Encodable (t : Text) : Prop := ∀ c ∈ t, c.isSurrogate = false

@[simp] theorem encodable_nil : Encodable [] := by
  simp [Encodable]

@[simp] theorem encodable_cons {c : CodePoint} {t : Text} :
    Encodable (c :: t) ↔ c.isSurrogate = false ∧ Encodable t := by
  simp [Encodable]

@[simp] theorem encodable_append {s t : Text} :
    Encodable (s ++ t) ↔ Encodable s ∧ Encodable t := by
  simp only [Encodable, List.mem_append]
  constructor
  · intro h
    exact ⟨fun c hc => h c (.inl hc), fun c hc => h c (.inr hc)⟩
  · rintro ⟨hs, ht⟩ c (hc | hc)
    · exact hs c hc
    · exact ht c hc

/-- No character is a surrogate. -/
@[simp] theorem isSurrogate_ofChar (c : Char) : (CodePoint.ofChar c).isSurrogate = false := by
  have hval := CodePoint.val_ofChar c
  have hvalid : c.toNat < 0xD800 ∨ 0xDFFF < c.toNat ∧ c.toNat < 0x110000 := c.valid
  simp only [CodePoint.isSurrogate, hval, Bool.and_eq_false_iff, decide_eq_false_iff_not]
  omega

@[simp] theorem encodable_text (s : String) : Encodable (text s) := by
  intro c hc
  obtain ⟨d, _, rfl⟩ := List.mem_map.1 hc
  exact isSurrogate_ofChar d

theorem Encodable.of_isDigit {t : Text} (h : ∀ c ∈ t, c.isDigit = true) : Encodable t := by
  intro c hc
  have := h c hc
  simp only [CodePoint.isDigit, CodePoint.isSurrogate, Bool.and_eq_true, decide_eq_true_eq,
    Bool.and_eq_false_iff, decide_eq_false_iff_not] at this ⊢
  omega

@[simp] theorem encodable_ofNat (n : Nat) : Encodable (ofNat n) :=
  .of_isDigit fun _ hc => isDigit_of_mem_ofNat hc

theorem Encodable.sublist {s t : Text} (hst : s.Sublist t) (h : Encodable t) : Encodable s :=
  fun c hc => h c (hst.subset hc)

theorem encodable_flatMap {α : Type} {parts : List α} {f : α → Text} :
    Encodable (parts.flatMap f) ↔ ∀ a ∈ parts, Encodable (f a) := by
  induction parts with
  | nil => simp
  | cons a parts ih => simp [List.flatMap_cons, ih]

/-- An encoder complains about a text exactly when a surrogate stands in it. -/
theorem encodingFault?_eq_none_iff {t : Text} : t.encodingFault? = none ↔ Encodable t := by
  have hdrop : (t.dropWhile fun c => !c.isSurrogate) = [] ↔ Encodable t := by
    simp [List.dropWhile_eq_nil_iff, Encodable]
  rw [← hdrop, encodingFault?]
  cases t.dropWhile fun c => !c.isSurrogate with
  | nil => simp
  | cons c rest => simp

end ShapedJson.Text
