import Mathlib.Algebra.Order.Field.Power
import Mathlib.Algebra.Order.Ring.Rat
import ShapedJson.Proofs.Json.Numerals
import ShapedJson.Proofs.Settings

/-!
# Waits that are set

The rule for a wait refuses what is zero or less.  NaN is neither that nor positive, so the rule
lets it through; every other wait that it lets through is positive.  NaN comes from three kinds of
values only: the number itself, a text that names it between blanks, and such a text with
underscores inside.
-/

namespace ShapedJson

namespace Binary64

theorem ofRatio_ne_nan (negative : Bool) (num den : Nat) : ofRatio negative num den ≠ .nan := by
  unfold ofRatio
  split
  · nofun
  · dsimp only
    split <;> split <;> simp

theorem ofDecimal_ne_nan (negative : Bool) (digits : Nat) (exponent : Int) :
    ofDecimal negative digits exponent ≠ .nan := by
  unfold ofDecimal
  split
  · nofun
  · split
    · nofun
    · split
      · exact ofRatio_ne_nan _ _ _
      · split
        · nofun
        · exact ofRatio_ne_nan _ _ _

theorem ofInt_ne_nan (n : Int) : ofInt n ≠ .nan := ofRatio_ne_nan _ _ _

/-- The number that a finite value stands for. -/
def finiteValue (negative : Bool) (mantissa : Nat) (exponent : Int) : ℚ :=
  (if negative then -(mantissa : ℚ) else mantissa) * 2 ^ exponent

/-- A value above zero: the infinity of that side, or a number greater than zero. -/
inductive AboveZero : Binary64 → Prop
  | infinity : AboveZero (.infinity false)
  | finite {negative : Bool} {mantissa : Nat} {exponent : Int}
      (greater : 0 < finiteValue negative mantissa exponent) :
      AboveZero (.finite negative mantissa exponent)

theorem finiteValue_pos_iff {negative : Bool} {mantissa : Nat} (exponent : Int) :
    0 < finiteValue negative mantissa exponent ↔ negative = false ∧ 0 < mantissa := by
  have hpower : (0 : ℚ) < 2 ^ exponent := zpow_pos two_pos exponent
  rw [finiteValue, mul_pos_iff_of_pos_right hpower]
  cases negative with
  | true => simp
  | false => simp

/-- What is not zero or less is above zero, or it is NaN. -/
theorem isNonpositive_eq_false_iff {x : Binary64} :
    x.isNonpositive = false ↔ x = .nan ∨ x.AboveZero := by
  cases x with
  | nan => exact iff_of_true rfl (.inl rfl)
  | infinity negative =>
      cases negative with
      | true => exact iff_of_false nofun nofun
      | false => exact iff_of_true rfl (.inr .infinity)
  | finite negative mantissa exponent =>
      have habove : AboveZero (.finite negative mantissa exponent) ↔
          negative = false ∧ 0 < mantissa := by
        refine Iff.trans ⟨?_, .finite⟩ (finiteValue_pos_iff exponent)
        rintro ⟨⟩
        assumption
      rw [habove]
      simp [isNonpositive, Nat.pos_iff_ne_zero]

end Binary64

theorem CodePoint.isDigit_lower {c : CodePoint} (h : c.isDigit = true) :
    c.lower.isDigit = true := by
  have hupper : c.isUpper = false := by
    simp only [isDigit, Bool.and_eq_true, decide_eq_true_eq] at h
    simp only [isUpper, Bool.and_eq_false_imp, decide_eq_true_eq, decide_eq_false_iff_not]
    omega
  rwa [lower, hupper]

theorem Text.mem_of_mem_trimOf {p : CodePoint → Bool} {t : Text} {c : CodePoint}
    (h : c ∈ trimOf p t) : c ∈ t := by
  unfold trimOf trimEndOf at h
  have hstart := List.mem_reverse.1 ((List.dropWhile_sublist p).mem (List.mem_reverse.1 h))
  exact (List.dropWhile_sublist p).mem hstart

namespace Liberal

/-! ## Texts that name NaN -/

/-- A text that names NaN, in letters of either case and perhaps after a sign. -/
def NamesNan (t : Text) : Prop := (Numeral.scanSign t).2.map CodePoint.lower = text "nan"

variable {t : Text} {x : Binary64}

theorem decimal?_ne_nan (negative : Bool) (t : Text) : decimal? negative t ≠ some .nan := by
  intro h
  unfold decimal? at h
  dsimp only at h
  rw [Option.ite_none_left_eq_some] at h
  exact Binary64.ofDecimal_ne_nan _ _ _ (Option.some.inj h.2)

theorem plainNumber?_eq_nan_iff : plainNumber? t = some .nan ↔ NamesNan t := by
  unfold plainNumber? NamesNan
  dsimp only
  split
  · rename_i hname
    refine iff_of_false nofun fun hnan => ?_
    rw [hnan] at hname
    exact absurd hname (by decide)
  · split
    · rename_i hnan
      exact iff_of_true rfl hnan
    · rename_i hnan
      exact iff_of_false (decimal?_ne_nan _ _) hnan

/-- A decimal has a digit. -/
theorem exists_isDigit_of_decimal? {negative : Bool} (h : decimal? negative t = some x) :
    ∃ c ∈ t, c.isDigit = true := by
  unfold decimal? at h
  rcases hwhole : Numeral.scanDigits t with ⟨whole, rest⟩
  have happend := Numeral.scanDigits_append t
  have hdigits := Numeral.scanDigits_fst_isDigit t
  rw [hwhole] at happend hdigits
  rw [hwhole] at h
  cases whole with
  | cons c whole => exact ⟨c, by simp [← happend], hdigits c (by simp)⟩
  | nil =>
      -- without a whole part the first digit is the one after the point
      obtain rfl : rest = t := happend
      cases rest with
      | nil => simp at h
      | cons point after =>
          by_cases hpoint : point = '.'
          · have hafter := Numeral.scanDigits_append after
            have hfraction := Numeral.scanDigits_fst_isDigit after
            cases hscan : (Numeral.scanDigits after).1 with
            | nil => simp [hpoint, hscan] at h
            | cons d fraction =>
                rw [hscan] at hafter hfraction
                refine ⟨d, List.mem_cons_of_mem point ?_, hfraction d (by simp)⟩
                rw [← hafter]
                simp
          · simp [hpoint] at h

/-- What is read as another number than NaN has a digit, or the letter f of the infinities. -/
theorem exists_mem_of_plainNumber? (h : plainNumber? t = some x) (hx : x ≠ .nan) :
    ∃ c ∈ t, c.isDigit = true ∨ c.lower = 'f' := by
  rcases hsign : Numeral.scanSign t with ⟨negative, body⟩
  have hbody : ∀ c ∈ body, c ∈ t := by
    intro c hc
    rcases Numeral.scanSign_eq hsign with ⟨-, rfl⟩ | ⟨-, rfl⟩ | ⟨-, rfl⟩ <;> simp [hc]
  unfold plainNumber? at h
  simp only [hsign] at h
  split at h
  · rename_i hname
    have hf : ('f' : CodePoint) ∈ body.map CodePoint.lower := by
      rcases hname with hname | hname <;> rw [hname] <;> decide
    obtain ⟨c, hc, hlower⟩ := List.mem_map.1 hf
    exact ⟨c, hbody c hc, .inr hlower⟩
  · split at h
    · cases h
      exact absurd rfl hx
    · obtain ⟨c, hc, hdigit⟩ := exists_isDigit_of_decimal? h
      exact ⟨c, hbody c hc, .inl hdigit⟩

/-- The name of NaN has neither a digit nor the letter f. -/
theorem NamesNan.not_mem (h : NamesNan t) {c : CodePoint} (hc : c ∈ t) :
    ¬ (c.isDigit = true ∨ c.lower = 'f') := by
  unfold NamesNan at h
  rcases hsign : Numeral.scanSign t with ⟨negative, body⟩
  rw [hsign] at h
  have hbody : c ∈ body → ¬ (c.isDigit = true ∨ c.lower = 'f') := by
    intro hc
    have hmem : c.lower ∈ text "nan" := h ▸ List.mem_map_of_mem hc
    have hnone : ∀ d ∈ text "nan", d.isDigit = false ∧ d ≠ 'f' := by
      intro d hd
      have hd : d = 'n' ∨ d = 'a' ∨ d = 'n' := by simpa [text] using hd
      rcases hd with rfl | rfl | rfl <;> decide
    rintro (hdigit | hf)
    · have hlower := CodePoint.isDigit_lower hdigit
      rw [(hnone _ hmem).1] at hlower
      cases hlower
    · exact (hnone _ hmem).2 hf
  rcases Numeral.scanSign_eq hsign with ⟨-, rfl⟩ | ⟨-, rfl⟩ | ⟨-, rfl⟩
  · exact hbody hc
  · rcases List.mem_cons.1 hc with rfl | hc
    · decide
    · exact hbody hc
  · rcases List.mem_cons.1 hc with rfl | hc
    · decide
    · exact hbody hc

/-! ## Values that are read as NaN -/

/-- A value that is read as NaN. -/
inductive ReadsNan : Json → Prop
  | number : ReadsNan (.number (.real .nan))
  | blanked {t : Text} (names : NamesNan (Text.trimOf CodePoint.isWhiteSpace t)) :
      ReadsNan (.string t)
  | underscored {t joined : Text} (underscores : withoutUnderscores? t = some joined)
      (names : NamesNan joined) : ReadsNan (.string t)

theorem mem_withoutUnderscores? {joined : Text} (h : withoutUnderscores? t = some joined)
    {c : CodePoint} (hc : c ∈ t) : c = '_' ∨ c ∈ joined := by
  unfold withoutUnderscores? at h
  split at h
  · cases h
  · cases h
    by_cases hunderscore : c = '_'
    · exact .inl hunderscore
    · exact .inr (List.mem_filter.2 ⟨hc, by simpa using hunderscore⟩)

theorem numberOfText_eq_nan_iff : numberOfText t = .ok .nan ↔ ReadsNan (.string t) := by
  have hread : numberOfText t = .ok .nan ↔
      ((plainNumber? (Text.trimOf CodePoint.isWhiteSpace t)).or
        ((withoutUnderscores? t).bind plainNumber?)) = some .nan := by
    unfold numberOfText
    dsimp only
    generalize (plainNumber? (Text.trimOf CodePoint.isWhiteSpace t)).or
      ((withoutUnderscores? t).bind plainNumber?) = found
    cases found <;> simp
  rw [hread, Option.or_eq_some_iff, plainNumber?_eq_nan_iff, Option.bind_eq_some_iff]
  constructor
  · rintro (hnames | ⟨-, joined, hjoined, hnan⟩)
    · exact .blanked hnames
    · exact .underscored hjoined (plainNumber?_eq_nan_iff.1 hnan)
  · rintro (_ | hnames | ⟨hjoined, hnames⟩)
    · exact .inl hnames
    · rename_i joined
      -- the text between the blanks is no other number, as it has the letters of NaN only
      cases hplain : plainNumber? (Text.trimOf CodePoint.isWhiteSpace t) with
      | none => exact .inr ⟨rfl, joined, hjoined, plainNumber?_eq_nan_iff.2 hnames⟩
      | some x =>
          by_cases hx : x = .nan
          · rw [hx] at hplain
            exact .inl (plainNumber?_eq_nan_iff.1 hplain)
          · obtain ⟨c, hc, hletter⟩ := exists_mem_of_plainNumber? hplain hx
            rcases mem_withoutUnderscores? hjoined (Text.mem_of_mem_trimOf hc) with rfl | hmem
            · exact absurd hletter (by decide)
            · exact absurd hletter (hnames.not_mem hmem)

theorem number_eq_nan_iff {v : Json} : number v = .ok .nan ↔ ReadsNan v := by
  cases v with
  | number n =>
      cases n with
      | whole n =>
          refine iff_of_false ?_ nofun
          simp only [number]
          split
          · intro h
            exact Binary64.ofInt_ne_nan n (Except.ok.inj h)
          · nofun
      | real x =>
          constructor
          · rintro ⟨⟩
            exact .number
          · rintro ⟨⟩
            rfl
  | bool b =>
      refine iff_of_false ?_ nofun
      intro h
      exact Binary64.ofInt_ne_nan _ (Except.ok.inj h)
  | string t => exact numberOfText_eq_nan_iff
  | null | array items | object fields => exact iff_of_false nofun nofun

end Liberal

/-- The wait that the sources give is NaN. -/
def SettingSources.WaitIsNan (s : SettingSources) : Prop :=
  ∃ v, s.value? (text "attempt_timeout") = some v ∧ Liberal.ReadsNan v

namespace Settings.ReadFrom

variable {s : Settings} {sources : SettingSources}

/-- The wait is NaN when the sources say so, and above zero otherwise. -/
theorem attemptTimeout_cases (h : s.ReadFrom sources) :
    (sources.WaitIsNan ∧ s.attemptTimeout = .seconds (.real .nan)) ∨
      (¬ sources.WaitIsNan ∧
        ∃ x : Binary64, s.attemptTimeout = .seconds (.real x) ∧ x.AboveZero) := by
  rcases SettingSources.readSetting_eq_ok_iff.1 h.attemptTimeout with ⟨hnone, hs⟩ | ⟨v, hv, hread⟩
  · refine .inr ⟨?_, .ofInt 60, hs, ?_⟩
    · rintro ⟨v, hv, -⟩
      rw [hnone] at hv
      cases hv
    · have hsixty : (Binary64.ofInt 60).isNonpositive = false := by decide +kernel
      exact (Binary64.isNonpositive_eq_false_iff.1 hsixty).resolve_left (Binary64.ofInt_ne_nan 60)
  · obtain ⟨x, hx, hnonpositive, hs⟩ := timeout_eq_ok_iff.1 hread
    rcases Binary64.isNonpositive_eq_false_iff.1 hnonpositive with rfl | habove
    · exact .inl ⟨⟨v, hv, Liberal.number_eq_nan_iff.1 hx⟩, hs⟩
    · refine .inr ⟨?_, x, hs, habove⟩
      rintro ⟨w, hw, hnan⟩
      obtain rfl : v = w := Option.some.inj (hv.symm.trans hw)
      rw [Liberal.number_eq_nan_iff.2 hnan] at hx
      cases hx
      cases habove

end Settings.ReadFrom

end ShapedJson
