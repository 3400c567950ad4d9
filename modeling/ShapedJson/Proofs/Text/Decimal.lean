import Mathlib.Algebra.Group.Nat.Defs
import ShapedJson.Text.Basic

/-!
# Decimal digits

The digits of a natural number denote it again, start with a zero only for zero, and are no
more than the number needs.
-/

namespace ShapedJson

theorem CodePoint.val_ofChar (c : Char) : (CodePoint.ofChar c).val = c.toNat := by
  have hc : c.toNat < 0x110000 := by
    rcases c.valid with h | ⟨_, h⟩
    · exact Nat.lt_trans h (by decide)
    · exact h
  exact Nat.mod_eq_of_lt hc

namespace Text

theorem digitValue_ofChar (c : Char) :
    (CodePoint.ofChar c).digitValue = c.toNat - '0'.toNat := by
  rw [CodePoint.digitValue, CodePoint.val_ofChar]
  rfl

/-- Digits are read back as the number that they were written for. -/
@[simp] theorem decimalValue_ofNat (n : Nat) : decimalValue (ofNat n) = n := by
  -- the fold over code points is the one over characters that the library has laws for
  have hfold : ∀ (cs : List Char) (start : Nat),
      (cs.map CodePoint.ofChar).foldl (fun n d => 10 * n + d.digitValue) start =
        Nat.ofDigitChars 10 cs start := by
    intro cs
    induction cs with
    | nil => intro start; rfl
    | cons c cs ih =>
        intro start
        rw [List.map_cons, List.foldl_cons, ih, digitValue_ofChar, Nat.ofDigitChars_cons]
  rw [decimalValue, ofNat, hfold, Nat.ofDigitChars_ten_toDigits]

theorem ofNat_injective {m n : Nat} (h : ofNat m = ofNat n) : m = n := by
  rw [← decimalValue_ofNat m, h, decimalValue_ofNat]

theorem ofNat_ne_nil (n : Nat) : ofNat n ≠ [] := by
  simp [ofNat]

theorem isDigit_of_mem_ofNat {n : Nat} {c : CodePoint} (hc : c ∈ ofNat n) : c.isDigit = true := by
  rw [ofNat, List.mem_map] at hc
  obtain ⟨d, hd, rfl⟩ := hc
  have hdigit : d.isDigit = true := Nat.isDigit_of_mem_toDigits (by decide) (by decide) hd
  simp only [Char.isDigit, Bool.and_eq_true, decide_eq_true_eq, UInt32.le_iff_toNat_le] at hdigit
  change 48 ≤ d.toNat ∧ d.toNat ≤ 57 at hdigit
  simp only [CodePoint.isDigit, CodePoint.val_ofChar, Bool.and_eq_true, decide_eq_true_eq]
  omega

theorem length_ofNat_le_iff {n k : Nat} (hk : 0 < k) : (ofNat n).length ≤ k ↔ n < 10 ^ k := by
  rw [ofNat, List.length_map]
  exact Nat.length_toDigits_le_iff (by decide) hk

/-- So many digits denote a number below that power of ten. -/
theorem decimalValue_lt {digits : Text} (h : ∀ c ∈ digits, c.isDigit = true) :
    decimalValue digits < 10 ^ digits.length := by
  have hfold : ∀ (ds : Text) (start : Nat), (∀ c ∈ ds, c.isDigit = true) →
      ds.foldl (fun n d => 10 * n + d.digitValue) start < (start + 1) * 10 ^ ds.length := by
    intro ds
    induction ds with
    | nil => intro start _; simp
    | cons c ds ih =>
        intro start hds
        have hc : c.digitValue ≤ 9 := by
          have := hds c (by simp)
          simp only [CodePoint.isDigit, Bool.and_eq_true, decide_eq_true_eq] at this
          simp only [CodePoint.digitValue]
          omega
        have hrest := ih (10 * start + c.digitValue) fun d hd => hds d (by simp [hd])
        have hle : (10 * start + c.digitValue + 1) * 10 ^ ds.length ≤
            (start + 1) * 10 ^ (ds.length + 1) := by
          rw [Nat.pow_succ, ← Nat.mul_assoc, Nat.mul_right_comm]
          exact Nat.mul_le_mul_right _ (by omega)
        exact Nat.lt_of_lt_of_le hrest hle
  simpa [decimalValue] using hfold digits 0 h

/-- A number has at most as many digits as any digits that denote it. -/
theorem length_ofNat_decimalValue_le {digits : Text} (h : ∀ c ∈ digits, c.isDigit = true)
    (hne : digits ≠ []) : (ofNat (decimalValue digits)).length ≤ digits.length :=
  (length_ofNat_le_iff (List.length_pos_iff.2 hne)).2 (decimalValue_lt h)

/-- Only zero is written with a zero in front. -/
theorem eq_zero_of_ofNat_eq_zero_cons {n : Nat} {rest : Text}
    (h : ofNat n = ('0' : CodePoint) :: rest) : n = 0 ∧ rest = [] := by
  have hvalue : n = decimalValue rest := by
    rw [← decimalValue_ofNat n, h]
    rfl
  by_cases hrest : rest = []
  · subst hrest
    exact ⟨hvalue, rfl⟩
  · -- the digits after the zero would do alone
    exfalso
    have hdigits : ∀ c ∈ rest, c.isDigit = true := fun c hc =>
      isDigit_of_mem_ofNat (n := n) (by rw [h]; exact List.mem_cons_of_mem _ hc)
    have hle := length_ofNat_decimalValue_le hdigits hrest
    rw [← hvalue, h, List.length_cons] at hle
    omega

end Text

end ShapedJson
