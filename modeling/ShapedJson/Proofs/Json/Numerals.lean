import Mathlib.Data.List.TakeWhile
import ShapedJson.Json.Numeral

/-!
# The grammar of numerals

What a numeral looks like, part by part.  A scan finds just the numerals of the grammar, and it
finds the whole of one when nothing that could belong to it follows.
-/

namespace ShapedJson

theorem CodePoint.ne_of_isDigit {c d : CodePoint} (hc : c.isDigit = true) (hd : d.isDigit = false) :
    c ≠ d := by
  rintro rfl
  rw [hc] at hd
  cases hd

namespace Text

/-- Digits, at least one. -/
def IsDigits (t : Text) : Prop := t ≠ [] ∧ ∀ c ∈ t, c.isDigit = true

/-- Nothing at the start of the text could belong to a numeral before it. -/
def EndsNumeral (t : Text) : Prop :=
  ∀ c ∈ t.head?, c.isDigit = false ∧ c ≠ '.' ∧ c ≠ 'e' ∧ c ≠ 'E'

theorem endsNumeral_nil : EndsNumeral [] := by
  simp [EndsNumeral]

theorem endsNumeral_cons {c : CodePoint} {t : Text} :
    EndsNumeral (c :: t) ↔ c.isDigit = false ∧ c ≠ '.' ∧ c ≠ 'e' ∧ c ≠ 'E' := by
  simp [EndsNumeral]

end Text

namespace Numeral

/-- The digits before the point: a zero alone, or digits that start with another. -/
inductive Whole : Text → Prop
  | zero : Whole ['0']
  | positive {c : CodePoint} {rest : Text} (nonzero : c ≠ '0')
      (digits : Text.IsDigits (c :: rest)) : Whole (c :: rest)

/-- A point and digits, or nothing. -/
inductive Fraction : Text → Text → Prop
  | none : Fraction [] []
  | digits {ds : Text} (digits : ds.IsDigits) : Fraction ('.' :: ds) ds

/-- A mark, a sign or none, and digits; or nothing. -/
inductive Exponent : Text → Option (Bool × Text) → Prop
  | none : Exponent [] .none
  | unsigned {mark : CodePoint} {ds : Text} (isMark : mark = 'e' ∨ mark = 'E')
      (digits : ds.IsDigits) : Exponent (mark :: ds) (some (false, ds))
  | plus {mark : CodePoint} {ds : Text} (isMark : mark = 'e' ∨ mark = 'E')
      (digits : ds.IsDigits) : Exponent (mark :: '+' :: ds) (some (false, ds))
  | minus {mark : CodePoint} {ds : Text} (isMark : mark = 'e' ∨ mark = 'E')
      (digits : ds.IsDigits) : Exponent (mark :: '-' :: ds) (some (true, ds))

/-- The text is the numeral as it is written. -/
inductive Spells : Text → Numeral → Prop
  | parts {negative : Bool} {whole f fraction e : Text} {exponent : Option (Bool × Text)}
      (isWhole : Whole whole) (isFraction : Fraction f fraction)
      (isExponent : Exponent e exponent) :
      Spells (Text.signed negative (whole ++ f ++ e)) ⟨negative, whole, fraction, exponent⟩

theorem Whole.exists_eq_cons {whole : Text} (h : Whole whole) :
    ∃ d ds, whole = d :: ds ∧ d.isDigit = true := by
  cases h with
  | zero => exact ⟨'0', [], rfl, by decide⟩
  | positive nonzero digits => exact ⟨_, _, rfl, digits.2 _ (by simp)⟩

/-- A numeral starts with a digit, or with a minus sign and a digit. -/
theorem Spells.exists_eq_cons {t : Text} {n : Numeral} (h : Spells t n) :
    ∃ d tail, d.isDigit = true ∧ (t = d :: tail ∨ t = ('-' : CodePoint) :: d :: tail) := by
  obtain ⟨hwhole, -, -⟩ := h
  rename_i negative whole f fraction e exponent
  obtain ⟨d, ds, rfl, hd⟩ := hwhole.exists_eq_cons
  refine ⟨d, ds ++ f ++ e, hd, ?_⟩
  cases negative with
  | false => exact .inl rfl
  | true => exact .inr rfl

/-! ## A scan finds a numeral of the grammar -/

variable {t rest : Text}

theorem scanDigits_fst_isDigit (t : Text) : ∀ c ∈ (scanDigits t).1, c.isDigit = true :=
  fun _ hc => List.mem_takeWhile_imp hc

theorem scanMinus_eq {negative : Bool} (h : scanMinus t = (negative, rest)) :
    t = Text.signed negative rest := by
  unfold scanMinus at h
  split at h
  · cases h
    rfl
  · split at h
    · rename_i hc
      cases h
      rw [hc]
      rfl
    · cases h
      rfl

theorem scanWhole_eq {whole : Text} (h : scanWhole t = (whole, rest)) (hne : whole ≠ []) :
    t = whole ++ rest ∧ Whole whole := by
  unfold scanWhole at h
  split at h
  · cases h
    exact absurd rfl hne
  · rename_i c tail
    split at h
    · rename_i hc
      cases h
      rw [hc]
      exact ⟨rfl, .zero⟩
    · rename_i hc
      have happend := scanDigits_append (c :: tail)
      have hdigits := scanDigits_fst_isDigit (c :: tail)
      rw [h] at happend hdigits
      -- the first digit is the first code point, which is no zero
      obtain ⟨d, ds, rfl⟩ := List.exists_cons_of_ne_nil hne
      obtain rfl : d = c := List.cons.inj happend |>.1
      exact ⟨happend.symm, .positive hc ⟨hne, hdigits⟩⟩

theorem scanFraction_eq {fraction : Text} (h : scanFraction t = (fraction, rest)) :
    ∃ f, t = f ++ rest ∧ Fraction f fraction := by
  unfold scanFraction at h
  split at h
  · cases h
    exact ⟨[], rfl, .none⟩
  · rename_i c tail
    split at h
    · rename_i hc
      have happend := scanDigits_append tail
      have hdigits := scanDigits_fst_isDigit tail
      rw [h] at happend hdigits hc
      refine ⟨'.' :: fraction, ?_, .digits ⟨hc.2, hdigits⟩⟩
      rw [hc.1, List.cons_append, happend]
    · cases h
      exact ⟨[], rfl, .none⟩

theorem scanSign_eq {negative : Bool} (h : scanSign t = (negative, rest)) :
    (negative = false ∧ t = rest) ∨ (negative = false ∧ t = ('+' : CodePoint) :: rest) ∨
      (negative = true ∧ t = ('-' : CodePoint) :: rest) := by
  unfold scanSign at h
  split at h
  · cases h
    exact .inl ⟨rfl, rfl⟩
  · split at h
    · rename_i hc
      cases h
      exact .inr (.inr ⟨rfl, by rw [hc]⟩)
    · split at h
      · rename_i hc
        cases h
        exact .inr (.inl ⟨rfl, by rw [hc]⟩)
      · cases h
        exact .inl ⟨rfl, rfl⟩

theorem scanExponent_eq {exponent : Option (Bool × Text)} (h : scanExponent t = (exponent, rest)) :
    ∃ e, t = e ++ rest ∧ Exponent e exponent := by
  unfold scanExponent at h
  split at h
  · cases h
    exact ⟨[], rfl, .none⟩
  · rename_i c tail
    rcases hsign : scanSign tail with ⟨negative, body⟩
    rw [hsign] at h
    have happend := scanDigits_append body
    have hdigits := scanDigits_fst_isDigit body
    rcases hds : scanDigits body with ⟨digits, after⟩
    rw [hds] at happend hdigits
    simp only [hds] at h
    -- a mark that no digits follow is not taken, nor is its sign
    split at h
    · rename_i hc
      cases h
      obtain ⟨hmark, hne⟩ := hc
      rcases scanSign_eq hsign with ⟨rfl, rfl⟩ | ⟨rfl, rfl⟩ | ⟨rfl, rfl⟩
      · exact ⟨c :: digits, by rw [← happend]; rfl, .unsigned hmark ⟨hne, hdigits⟩⟩
      · exact ⟨c :: '+' :: digits, by rw [← happend]; rfl, .plus hmark ⟨hne, hdigits⟩⟩
      · exact ⟨c :: '-' :: digits, by rw [← happend]; rfl, .minus hmark ⟨hne, hdigits⟩⟩
    · cases h
      exact ⟨[], rfl, .none⟩

/-- What a scan finds at the start of a text is a numeral of the grammar. -/
theorem scan?_sound {n : Numeral} (h : scan? t = some (n, rest)) :
    ∃ s, t = s ++ rest ∧ Spells s n := by
  unfold scan? at h
  rcases hminus : scanMinus t with ⟨negative, t₁⟩
  rcases hwhole : scanWhole t₁ with ⟨whole, t₂⟩
  rcases hfraction : scanFraction t₂ with ⟨fraction, t₃⟩
  rcases hexponent : scanExponent t₃ with ⟨exponent, t₄⟩
  simp only [hminus, hwhole, hfraction, hexponent] at h
  split at h
  · cases h
  · rename_i hne
    cases h
    obtain ⟨rfl, hw⟩ := scanWhole_eq hwhole hne
    obtain ⟨f, rfl, hf⟩ := scanFraction_eq hfraction
    obtain ⟨e, rfl, he⟩ := scanExponent_eq hexponent
    refine ⟨_, ?_, .parts hw hf he⟩
    rw [scanMinus_eq hminus]
    cases negative <;> simp [Text.signed]

/-! ## A scan finds the whole of a numeral -/

theorem scanDigits_append_of {ds : Text} (hds : ∀ c ∈ ds, c.isDigit = true)
    (hrest : ∀ c ∈ rest.head?, c.isDigit = false) : scanDigits (ds ++ rest) = (ds, rest) := by
  have htake : rest.takeWhile CodePoint.isDigit = [] := by
    cases rest with
    | nil => rfl
    | cons c rest => simp [hrest c (by simp)]
  have hdrop : rest.dropWhile CodePoint.isDigit = rest := by
    cases rest with
    | nil => rfl
    | cons c rest => simp [hrest c (by simp)]
  rw [scanDigits, List.takeWhile_append_of_pos hds, List.dropWhile_append_of_pos hds, htake, hdrop,
    List.append_nil]

theorem scanWhole_append_of {whole : Text} (h : Whole whole)
    (hrest : ∀ c ∈ rest.head?, c.isDigit = false) : scanWhole (whole ++ rest) = (whole, rest) := by
  cases h with
  | zero => rfl
  | positive nonzero digits =>
      rw [List.cons_append, scanWhole, if_neg nonzero, ← List.cons_append]
      exact scanDigits_append_of digits.2 hrest

theorem scanFraction_append_of {f fraction : Text} (h : Fraction f fraction)
    (hrest : ∀ c ∈ rest.head?, c.isDigit = false ∧ c ≠ '.') :
    scanFraction (f ++ rest) = (fraction, rest) := by
  cases h with
  | none =>
      cases rest with
      | nil => rfl
      | cons c rest => simp [scanFraction, (hrest c (by simp)).2]
  | digits digits =>
      have hscan := scanDigits_append_of digits.2 fun c hc => (hrest c hc).1
      rw [List.cons_append, scanFraction, hscan, if_pos ⟨rfl, digits.1⟩]

theorem scanSign_append_of {ds : Text} (h : ds.IsDigits) :
    scanSign (ds ++ rest) = (false, ds ++ rest) := by
  obtain ⟨hne, hdigits⟩ := h
  obtain ⟨c, ds, rfl⟩ := List.exists_cons_of_ne_nil hne
  have hc := hdigits c (by simp)
  have hminus : c ≠ '-' := CodePoint.ne_of_isDigit hc (by decide)
  have hplus : c ≠ '+' := CodePoint.ne_of_isDigit hc (by decide)
  rw [List.cons_append, scanSign, if_neg hminus, if_neg hplus]

theorem scanExponent_append_of {e : Text} {exponent : Option (Bool × Text)}
    (h : Exponent e exponent)
    (hrest : ∀ c ∈ rest.head?, c.isDigit = false ∧ c ≠ 'e' ∧ c ≠ 'E') :
    scanExponent (e ++ rest) = (exponent, rest) := by
  have hdigit : ∀ c ∈ rest.head?, c.isDigit = false := fun c hc => (hrest c hc).1
  cases h with
  | none =>
      cases rest with
      | nil => rfl
      | cons c rest => simp [scanExponent, hrest c (by simp)]
  | unsigned mark digits =>
      have hscan := scanDigits_append_of digits.2 hdigit
      rw [List.cons_append, scanExponent, scanSign_append_of digits]
      simp only [hscan, if_pos (And.intro mark digits.1)]
  | plus mark digits =>
      rename_i ds
      have hscan := scanDigits_append_of digits.2 hdigit
      have hsign : scanSign (('+' : CodePoint) :: (ds ++ rest)) = (false, ds ++ rest) := rfl
      rw [List.cons_append, List.cons_append, scanExponent, hsign]
      simp only [hscan, if_pos (And.intro mark digits.1)]
  | minus mark digits =>
      rename_i ds
      have hscan := scanDigits_append_of digits.2 hdigit
      have hsign : scanSign (('-' : CodePoint) :: (ds ++ rest)) = (true, ds ++ rest) := rfl
      rw [List.cons_append, List.cons_append, scanExponent, hsign]
      simp only [hscan, if_pos (And.intro mark digits.1)]

theorem Whole.ne_nil {whole : Text} (h : Whole whole) : whole ≠ [] := by
  obtain ⟨d, ds, rfl, -⟩ := h.exists_eq_cons
  exact List.cons_ne_nil d ds

/-- No numeral begins with a minus sign after its own. -/
theorem scanMinus_append_of {negative : Bool} {whole : Text} (h : Whole whole) :
    scanMinus (Text.signed negative (whole ++ rest)) = (negative, whole ++ rest) := by
  cases negative with
  | true => rfl
  | false =>
      obtain ⟨d, ds, rfl, hd⟩ := h.exists_eq_cons
      have hminus : d ≠ '-' := CodePoint.ne_of_isDigit hd (by decide)
      show scanMinus (d :: (ds ++ rest)) = _
      rw [scanMinus, if_neg hminus]
      rfl

/-- A scan finds the whole of a numeral when nothing that could belong to it follows. -/
theorem scan?_complete {n : Numeral} {s : Text} (h : Spells s n) (hrest : rest.EndsNumeral) :
    scan? (s ++ rest) = some (n, rest) := by
  obtain ⟨hw, hf, he⟩ := h
  rename_i negative whole f fraction e exponent
  -- each part ends where the next one starts, and none starts like the one before it goes on
  have hafterExponent := scanExponent_append_of he fun c hc =>
    ⟨(hrest c hc).1, (hrest c hc).2.2⟩
  have hafterFraction : scanFraction (f ++ (e ++ rest)) = (fraction, e ++ rest) := by
    refine scanFraction_append_of hf fun c hc => ?_
    cases he with
    | none => exact ⟨(hrest c hc).1, (hrest c hc).2.1⟩
    | unsigned mark | plus mark | minus mark =>
        simp only [List.cons_append, List.head?_cons, Option.mem_some_iff] at hc
        subst hc
        rcases mark with rfl | rfl <;> exact ⟨by decide, by decide⟩
  have hafterWhole : scanWhole (whole ++ (f ++ (e ++ rest))) = (whole, f ++ (e ++ rest)) := by
    refine scanWhole_append_of hw fun c hc => ?_
    cases hf with
    | none =>
        cases he with
        | none => exact (hrest c hc).1
        | unsigned mark | plus mark | minus mark =>
            simp only [List.nil_append, List.cons_append, List.head?_cons,
              Option.mem_some_iff] at hc
            subst hc
            rcases mark with rfl | rfl <;> decide
    | digits =>
        simp only [List.cons_append, List.head?_cons, Option.mem_some_iff] at hc
        subst hc
        decide
  have hsigned : Text.signed negative (whole ++ f ++ e) ++ rest =
      Text.signed negative (whole ++ (f ++ (e ++ rest))) := by
    cases negative <;> simp [Text.signed]
  rw [hsigned, scan?, scanMinus_append_of hw]
  simp only [hafterWhole, if_neg hw.ne_nil, hafterFraction, hafterExponent]

end Numeral

end ShapedJson
