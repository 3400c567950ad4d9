import ShapedJson.Json.Inline
import ShapedJson.Proofs.Number.Written
import ShapedJson.Proofs.Text.Encodable

/-!
# What messages show can be encoded

Numbers are written in ASCII, and a quoted text has an escape in the place of every surrogate,
which is not printable.  So a value inside a message never keeps the message from being encoded.
-/

namespace ShapedJson

namespace Text

theorem isSurrogate_hexDigit {d : Nat} (h : d < 16) : (hexDigit d).isSurrogate = false := by
  revert d
  decide

@[simp] theorem encodable_hex (width n : Nat) : Encodable (hex width n) := by
  induction width generalizing n with
  | zero => simp [hex]
  | succ width ih => simp [hex, ih, isSurrogate_hexDigit (Nat.mod_lt n (by decide : 0 < 16))]

@[simp] theorem encodable_ofInt (n : Int) : Encodable (ofInt n) := by
  cases n <;> simp [ofInt]

theorem IsDigits.encodable {t : Text} (h : t.IsDigits) : Encodable t := .of_isDigit h.2

theorem encodable_signed {negative : Bool} {t : Text} (h : Encodable t) :
    Encodable (signed negative t) := by
  cases negative with
  | true => simpa [signed] using h
  | false => exact h

end Text

namespace Numeral

open Text

theorem Whole.encodable {whole : Text} (h : Whole whole) : Encodable whole := by
  cases h with
  | zero => simp
  | positive nonzero digits => exact digits.encodable

theorem Fraction.encodable {f fraction : Text} (h : Fraction f fraction) : Encodable f := by
  cases h with
  | none => simp
  | digits digits => simp [digits.encodable]

theorem Exponent.encodable {e : Text} {exponent : Option (Bool × Text)} (h : Exponent e exponent) :
    Encodable e := by
  cases h with
  | none => simp
  | unsigned mark digits | plus mark digits | minus mark digits =>
      rcases mark with rfl | rfl <;> simp [digits.encodable]

theorem Spells.encodable {t : Text} {n : Numeral} (h : Spells t n) : Encodable t := by
  obtain ⟨hw, hf, he⟩ := h
  apply encodable_signed
  simp [hw.encodable, hf.encodable, he.encodable]

end Numeral

namespace Text

/-- A number is written in ASCII, where its layout writes the numbers that are not finite so. -/
theorem encodable_ofNumber (layout : FractionLayout) (hnan : Encodable layout.nan)
    (hinfinity : Encodable layout.infinity) (n : Number) : Encodable (ofNumber layout n) := by
  cases n with
  | whole n => exact encodable_ofInt n
  | real x =>
      cases x with
      | nan => exact hnan
      | infinity negative => exact encodable_signed hinfinity
      | finite negative mantissa exponent =>
          obtain ⟨n, hn, -⟩ :=
            spells_ofBinary64 layout (x := .finite negative mantissa exponent) rfl
          exact hn.encodable

/-- No surrogate is printable. -/
theorem isSurrogate_of_isPrintable {c : CodePoint} (h : c.isPrintable = true) :
    c.isSurrogate = false := by
  -- the range of the table that the surrogates lie in
  have hmem : ((0xD7FC, 0xF8FF) : Nat × Nat) ∈ unprintableRanges := by decide
  simp only [CodePoint.isPrintable, Bool.not_eq_true', List.any_eq_false] at h
  have hrange := h _ hmem
  simp only [Bool.and_eq_true, decide_eq_true_eq] at hrange
  simp only [CodePoint.isSurrogate, Bool.and_eq_false_iff, decide_eq_false_iff_not]
  omega

/-- A quoted text can be encoded, whatever the text. -/
@[simp] theorem encodable_quoted (t : Text) : Encodable t.quoted := by
  have hquote : t.quoteFor.isSurrogate = false := by
    unfold quoteFor
    split <;> simp
  have hone : ∀ c, Encodable (quotedCodePoint t.quoteFor c) := by
    intro c
    unfold quotedCodePoint
    split
    · rename_i hc
      rcases hc with rfl | rfl <;> simp [hquote]
    · split
      · simp
      · split
        · simp
        · split
          · simp
          · split
            · rename_i hc
              simp [isSurrogate_of_isPrintable hc]
            · split
              · simp
              · split <;> simp
  simp only [quoted, encodable_cons, encodable_append, encodable_flatMap]
  exact ⟨⟨hquote, fun c _ => hone c⟩, hquote, encodable_nil⟩

end Text

namespace Json

open Text

theorem encodable_inlineItems {items : List Json} (h : ∀ v ∈ items, v.inline.Encodable) :
    (inlineItems items).Encodable := by
  induction items with
  | nil => simp [inlineItems]
  | cons v rest ih =>
      simp [inlineItems, h v (by simp), ih fun w hw => h w (List.mem_cons_of_mem _ hw)]

theorem encodable_inlineFields {fields : List (Text × Json)}
    (h : ∀ f ∈ fields, f.2.inline.Encodable) : (inlineFields fields).Encodable := by
  induction fields with
  | nil => simp [inlineFields]
  | cons f rest ih =>
      obtain ⟨k, v⟩ := f
      have hv : v.inline.Encodable := h (k, v) (by simp)
      simp [inlineFields, hv, ih fun g hg => h g (List.mem_cons_of_mem _ hg)]

/-- A value inside a message can be encoded, whatever the value. -/
@[simp] theorem encodable_inline (v : Json) : v.inline.Encodable := by
  induction v with
  | null => simp [inline]
  | bool b => cases b <;> simp [inline]
  | number n =>
      exact encodable_ofNumber .message (encodable_text _) (encodable_text _) n
  | string s => simp [inline]
  | array items ih =>
      cases items with
      | nil => simp [inline]
      | cons v rest =>
          have hrest := encodable_inlineItems fun w hw => ih w (List.mem_cons_of_mem v hw)
          simp [inline, ih v (by simp), hrest]
  | object fields ih =>
      cases fields with
      | nil => simp [inline]
      | cons f rest =>
          obtain ⟨k, v⟩ := f
          have hv : v.inline.Encodable := ih (k, v) (by simp)
          have hrest := encodable_inlineFields fun g hg => ih g (List.mem_cons_of_mem (k, v) hg)
          simp [inline, hv, hrest]

end Json

end ShapedJson
