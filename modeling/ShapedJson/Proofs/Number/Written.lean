import ShapedJson.Proofs.Json.Numerals
import ShapedJson.Proofs.Text.Decimal

/-!
# Numbers as they are written

A finite number is written as a numeral of the grammar.  The numeral of a whole number is its
digits and denotes it again; that of a fraction has a point or an exponent, because the shortest
decimal that rounds to a positive value is not zero.
-/

namespace ShapedJson

namespace Binary64

/-! ## The shortest decimal is not zero -/

theorem scaled_num_pos {num den : Nat} (h : 0 < num) (exponent : Int) :
    0 < (scaled num den exponent).1 := by
  unfold scaled
  split
  · exact Nat.mul_pos h (Nat.pow_pos (by decide))
  · exact h

theorem Decimal.ratio_den_pos (d : Decimal) : 0 < d.ratio.2 := by
  unfold Decimal.ratio
  split
  · exact Nat.one_pos
  · exact Nat.pow_pos (by decide)

/-- Nothing that rounds to a positive value is zero. -/
theorem digits_ne_zero_of_roundsTo {mantissa : Nat} {exponent : Int} {d : Decimal}
    (hm : mantissa ≠ 0) (h : roundsTo mantissa exponent d = true) : d.digits ≠ 0 := by
  intro hd
  have hnum : d.ratio.1 = 0 := by
    unfold Decimal.ratio
    split <;> simp [hd]
  have hden := d.ratio_den_pos
  have hlow : ∀ below, 0 < below → 0 < (scaled below 4 exponent).1 * d.ratio.2 :=
    fun below hb => Nat.mul_pos (scaled_num_pos hb exponent) hden
  have hbelow : 0 < (if mantissa = 0x10000000000000 ∧ -1074 < exponent then 4 * mantissa - 1
      else 4 * mantissa - 2) := by
    split <;> omega
  have hpos := hlow _ hbelow
  simp only [roundsTo, hnum, Nat.zero_mul] at h
  split at h
  · simp only [Bool.and_eq_true, decide_eq_true_eq] at h
    omega
  · simp only [Bool.and_eq_true, decide_eq_true_eq] at h
    omega

theorem digits_ne_zero_of_shortestFrom {mantissa : Nat} {exponent : Int} {num den grids : Nat}
    {grid : Int} {d : Decimal} (hm : mantissa ≠ 0)
    (h : shortestFrom mantissa exponent num den grids grid = some d) : d.digits ≠ 0 := by
  induction grids generalizing grid with
  | zero => cases h
  | succ grids ih =>
      rw [shortestFrom] at h
      split at h
      · rename_i found hfound
        cases h
        exact digits_ne_zero_of_roundsTo hm (List.find?_some hfound)
      · exact ih h

theorem Decimal.digits_stripZeros_ne_zero {d : Decimal} (h : d.digits ≠ 0) (fuel : Nat) :
    (d.stripZeros fuel).digits ≠ 0 := by
  induction fuel generalizing d with
  | zero => exact h
  | succ fuel ih =>
      rw [Decimal.stripZeros]
      split
      · rename_i hd
        apply ih
        show d.digits / 10 ≠ 0
        omega
      · exact h

theorem digits_shortest_ne_zero {mantissa : Nat} (hm : mantissa ≠ 0) (exponent : Int) :
    (shortest mantissa exponent).digits ≠ 0 := by
  have hgetD : ∀ found : Option Decimal, (∀ d, found = some d → d.digits ≠ 0) →
      (found.getD ⟨mantissa, 0⟩).digits ≠ 0 := by
    intro found hfound
    cases found with
    | none => exact hm
    | some d => exact hfound d rfl
  apply Decimal.digits_stripZeros_ne_zero
  exact hgetD _ fun d hd => digits_ne_zero_of_shortestFrom hm hd

end Binary64

namespace Text

/-! ## Numerals -/

theorem isDigits_zero : IsDigits ['0'] := by
  refine ⟨by simp, fun c hc => ?_⟩
  rw [List.mem_singleton.1 hc]
  decide

theorem isDigits_ofNat (n : Nat) : (ofNat n).IsDigits :=
  ⟨ofNat_ne_nil n, fun _ hc => isDigit_of_mem_ofNat hc⟩

/-- The digits of a positive number start with none that is zero. -/
theorem exists_ofNat_eq_cons {n : Nat} (h : n ≠ 0) :
    ∃ c ds, ofNat n = c :: ds ∧ c ≠ '0' ∧ IsDigits (c :: ds) := by
  obtain ⟨c, ds, heq⟩ := List.exists_cons_of_ne_nil (ofNat_ne_nil n)
  refine ⟨c, ds, heq, ?_, heq ▸ isDigits_ofNat n⟩
  rintro rfl
  exact h (eq_zero_of_ofNat_eq_zero_cons heq).1

theorem whole_ofNat (n : Nat) : Numeral.Whole (ofNat n) := by
  by_cases h : n = 0
  · subst h
    exact .zero
  · obtain ⟨c, ds, heq, hc, hdigits⟩ := exists_ofNat_eq_cons h
    rw [heq]
    exact .positive hc hdigits

theorem spells_ofInt (n : Int) :
    Numeral.Spells (ofInt n) ⟨decide (n < 0), ofNat n.natAbs, [], none⟩ := by
  have h : Numeral.Spells (signed (decide (n < 0)) (ofNat n.natAbs ++ [] ++ []))
      ⟨decide (n < 0), ofNat n.natAbs, [], none⟩ := .parts (whole_ofNat n.natAbs) .none .none
  rw [List.append_nil, List.append_nil] at h
  cases n with
  | ofNat n => exact h
  | negSucc n =>
      have hneg : decide (Int.negSucc n < 0) = true := by simp [Int.negSucc_lt_zero]
      rw [hneg] at h ⊢
      exact h

theorem IsDigits.append {s t : Text} (hs : s.IsDigits) (ht : ∀ c ∈ t, c.isDigit = true) :
    IsDigits (s ++ t) := by
  refine ⟨by simp [hs.1], fun c hc => ?_⟩
  rcases List.mem_append.1 hc with hc | hc
  · exact hs.2 c hc
  · exact ht c hc

theorem isDigit_of_mem_zeros {n : Nat} {c : CodePoint}
    (h : c ∈ List.replicate n ('0' : CodePoint)) : c.isDigit = true := by
  rw [List.eq_of_mem_replicate h]
  decide

theorem exponent_ofExponent (width : Nat) (e : Int) :
    ∃ x, Numeral.Exponent (ofExponent width e) (some x) := by
  have hdigits : IsDigits (List.leftpad width ('0' : CodePoint) (ofNat e.natAbs)) := by
    obtain ⟨hne, hall⟩ := isDigits_ofNat e.natAbs
    refine ⟨by simp [List.leftpad, hne], fun c hc => ?_⟩
    rcases List.mem_append.1 hc with hc | hc
    · exact isDigit_of_mem_zeros hc
    · exact hall c hc
  unfold ofExponent
  by_cases he : e < 0
  · simp only [if_pos he]
    exact ⟨_, .minus (.inl rfl) hdigits⟩
  · simp only [if_neg he]
    exact ⟨_, .plus (.inl rfl) hdigits⟩

/-- A whole part with a fraction or an exponent after it is no whole number. -/
theorem spells_of_parts {whole f fraction e : Text} {exponent : Option (Bool × Text)}
    (negative : Bool) (hw : Numeral.Whole whole) (hf : Numeral.Fraction f fraction)
    (he : Numeral.Exponent e exponent) (hnot : fraction ≠ [] ∨ exponent ≠ none) :
    ∃ n, Numeral.Spells (signed negative (whole ++ f ++ e)) n ∧ n.isWhole = false := by
  refine ⟨_, .parts hw hf he, ?_⟩
  rcases hnot with hne | hne
  · simp [Numeral.isWhole, hne]
  · cases exponent with
    | none => exact absurd rfl hne
    | some x => simp [Numeral.isWhole]

theorem spells_of_fraction {whole fraction : Text} (negative : Bool) (hw : Numeral.Whole whole)
    (hf : fraction.IsDigits) :
    ∃ n, Numeral.Spells (signed negative (whole ++ ('.' : CodePoint) :: fraction)) n ∧
      n.isWhole = false := by
  have hspells := spells_of_parts negative hw (.digits hf) .none (.inl hf.1)
  rw [List.append_nil] at hspells
  exact hspells

/-- A positive decimal is written with a point or an exponent. -/
theorem spells_ofDecimal (layout : FractionLayout) (negative : Bool) {d : Binary64.Decimal}
    (h : d.digits ≠ 0) :
    ∃ n, Numeral.Spells (signed negative (ofDecimal layout d)) n ∧ n.isWhole = false := by
  obtain ⟨c, ds, heq, hc, hdigits⟩ := exists_ofNat_eq_cons h
  have hds : ∀ b ∈ ds, b.isDigit = true := fun b hb => hdigits.2 b (List.mem_cons_of_mem _ hb)
  have hone : Numeral.Whole [c] :=
    .positive hc ⟨by simp, fun b hb => hdigits.2 b (by simp_all)⟩
  unfold ofDecimal
  rw [heq]
  simp only
  split
  · split
    · -- zeros stand between the point and the digits
      have hfraction : IsDigits (List.replicate (-((c :: ds).length + d.exponent : Int)).toNat
          ('0' : CodePoint) ++ c :: ds) :=
        ⟨by simp, fun b hb => by
          rcases List.mem_append.1 hb with hb | hb
          · exact isDigit_of_mem_zeros hb
          · exact hdigits.2 b hb⟩
      exact spells_of_fraction negative .zero hfraction
    · split
      · -- the point stands among the digits
        rename_i hpos hlt
        obtain ⟨k, hk⟩ : ∃ k, ((c :: ds).length + d.exponent : Int).toNat = k + 1 :=
          ⟨((c :: ds).length + d.exponent : Int).toNat - 1, by omega⟩
        have hlen : k + 1 < (c :: ds).length := by omega
        rw [hk]
        have hwhole : Numeral.Whole ((c :: ds).take (k + 1)) := by
          rw [List.take_succ_cons]
          refine .positive hc ⟨by simp, fun b hb => ?_⟩
          rw [← List.take_succ_cons] at hb
          exact hdigits.2 b (List.mem_of_mem_take hb)
        have hfraction : IsDigits ((c :: ds).drop (k + 1)) := by
          refine ⟨?_, fun b hb => hdigits.2 b (List.mem_of_mem_drop hb)⟩
          rw [Ne, List.drop_eq_nil_iff]
          omega
        exact spells_of_fraction negative hwhole hfraction
      · -- zeros stand between the digits and the point
        have hwhole : Numeral.Whole (c :: (ds ++ List.replicate
            (((c :: ds).length + d.exponent : Int).toNat - (c :: ds).length) ('0' : CodePoint))) :=
          .positive hc (hdigits.append fun _ hb => isDigit_of_mem_zeros hb)
        exact spells_of_fraction negative hwhole isDigits_zero
  · -- one digit stands before the point, and there is a point if there are more
    cases ds with
    | nil =>
        obtain ⟨x, hx⟩ := exponent_ofExponent layout.exponentWidth
          ((([c] : Text).length : Int) + d.exponent - 1)
        have hspells := spells_of_parts negative hone .none hx (.inr (by simp))
        rw [List.append_nil] at hspells
        exact hspells
    | cons c' ds =>
        obtain ⟨x, hx⟩ := exponent_ofExponent layout.exponentWidth
          (((c :: c' :: ds).length : Int) + d.exponent - 1)
        have hfraction : IsDigits (c' :: ds) := ⟨by simp, hds⟩
        exact spells_of_parts negative hone (.digits hfraction) hx (.inl hfraction.1)

theorem spells_ofBinary64 (layout : FractionLayout) {x : Binary64} (h : x.isFinite = true) :
    ∃ n, Numeral.Spells (ofBinary64 layout x) n ∧ n.isWhole = false := by
  cases x with
  | nan => cases h
  | infinity negative => cases h
  | finite negative mantissa exponent =>
      show ∃ n, Numeral.Spells (signed negative (if mantissa = 0 then text "0.0"
        else ofDecimal layout (Binary64.shortest mantissa exponent))) n ∧ n.isWhole = false
      by_cases hm : mantissa = 0
      · rw [if_pos hm]
        exact spells_of_fraction negative .zero isDigits_zero
      · rw [if_neg hm]
        exact spells_ofDecimal layout negative (Binary64.digits_shortest_ne_zero hm exponent)

end Text

end ShapedJson
