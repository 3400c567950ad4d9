import ShapedJson.Proofs.Json.Reading
import ShapedJson.Proofs.Json.Traits
import ShapedJson.Proofs.Text.Decimal

/-!
# The values of the grammar

What a text denotes keeps the bounds of the reader: no more containers around a value than may
be opened, and no more digits in a whole number than are allowed.  No object of it has two fields
of one name.
-/

namespace ShapedJson

/-- A fraction, or a whole number of so many digits at most. -/
def Number.Short (digitLimit : Nat) : Number → Prop
  | .whole n => (Text.ofNat n.natAbs).length ≤ digitLimit
  | .real _ => True

namespace Json

/-- Whether the whole numbers of a value are short and the names of each object distinct. -/
def Regular (digitLimit : Nat) (v : Json) : Prop :=
  v.Every ⟨Number.Short digitLimit, fun _ => True, List.Nodup⟩

variable {rules : ReadRules} {nesting : Nat} {t : Text} {v : Json}

/-- A numeral has no fewer digits than the number it denotes. -/
theorem short_value {n : Numeral} (h : n.Spells t)
    (hbound : n.isWhole = true → n.whole.length ≤ rules.digitLimit) :
    n.value.Short rules.digitLimit := by
  unfold Numeral.value
  split
  · rename_i hwhole
    have hle := hbound hwhole
    obtain ⟨hw, -, -⟩ := h
    rename_i negative whole f fraction e exponent
    have hdigits : ∀ c ∈ whole, c.isDigit = true := by
      cases hw with
      | zero => simp; decide
      | positive nonzero digits => exact digits.2
    have hlength := Text.length_ofNat_decimalValue_le hdigits hw.ne_nil
    -- the sign is not counted
    have habs : (if negative = true then -(Text.decimalValue whole : Int)
        else Text.decimalValue whole).natAbs = Text.decimalValue whole := by
      split <;> omega
    show (Text.ofNat _).length ≤ _
    rw [habs]
    exact Nat.le_trans hlength hle
  · exact trivial

theorem SpellsScalar.regular (h : SpellsScalar rules t v) :
    v.height = 0 ∧ v.Regular rules.digitLimit := by
  unfold Regular
  cases h with
  | literal word =>
      rcases mem_literals_iff.1 word with ⟨-, rfl⟩ | ⟨-, rfl⟩ | ⟨-, rfl⟩ <;> simp [height]
  | constant allowed word =>
      rcases mem_constants_iff.1 word with ⟨-, rfl⟩ | ⟨-, rfl⟩ | ⟨-, rfl⟩ <;> simp [height, Number.Short]
  | number spells bound => exact ⟨rfl, every_number.2 (short_value spells bound)⟩

mutual

theorem SpellsValue.regular {rules : ReadRules} {nesting : Nat} {t : Text} {v : Json}
    (h : SpellsValue rules nesting t v) : v.height ≤ nesting ∧ v.Regular rules.digitLimit := by
  cases h with
  | scalar word =>
      obtain ⟨hheight, hregular⟩ := word.regular
      exact ⟨by omega, hregular⟩
  | string spells => exact ⟨Nat.zero_le _, .string _ trivial⟩
  | emptyArray blank => exact ⟨by simp [height, heightOfItems], .array _ (by simp)⟩
  | array blank inside =>
      have hitems := inside.regular
      refine ⟨?_, .array _ fun v hv => (hitems v hv).2⟩
      rw [height, Nat.add_le_add_iff_right, heightOfItems_le_iff]
      exact fun v hv => (hitems v hv).1
  | emptyObject blank =>
      exact ⟨by simp [height, heightOfFields], .object _ (by simp [Fields.names]) (by simp)⟩
  | object blank inside merges =>
      obtain rfl := merges.eq_distinct
      -- of fields of one name the last value stays, in the place of the first
      have hfields := inside.regular
      refine ⟨?_, .object _ (Fields.nodup_names_distinct _) fun f hf =>
        (hfields f (Fields.mem_of_mem_distinct hf)).2⟩
      rw [height, Nat.add_le_add_iff_right, heightOfFields_le_iff]
      exact fun f hf => (hfields f (Fields.mem_of_mem_distinct hf)).1

theorem SpellsItems.regular {rules : ReadRules} {nesting : Nat} {t : Text} {items : List Json}
    (h : SpellsItems rules nesting t items) :
    ∀ v ∈ items, v.height ≤ nesting ∧ v.Regular rules.digitLimit := by
  intro w hw
  cases h with
  | last value blank =>
      obtain rfl := List.mem_singleton.1 hw
      exact value.regular
  | more value blankAfter blankBefore inside =>
      rcases List.mem_cons.1 hw with rfl | hw
      · exact value.regular
      · exact inside.regular w hw

theorem SpellsFields.regular {rules : ReadRules} {nesting : Nat} {t : Text}
    {fields : List (Text × Json)} (h : SpellsFields rules nesting t fields) :
    ∀ f ∈ fields, f.2.height ≤ nesting ∧ f.2.Regular rules.digitLimit := by
  intro g hg
  cases h with
  | last spells value blank =>
      obtain rfl := List.mem_singleton.1 hg
      exact value.regular
  | more spells value blankAfter blankBefore inside =>
      rcases List.mem_cons.1 hg with rfl | hg
      · exact value.regular
      · exact inside.regular g hg

end

/-- What is read keeps the bounds of the reader. -/
theorem regular_of_read (h : read rules t = .ok v) :
    v.height ≤ rules.nestingLimit ∧ v.Regular rules.digitLimit := by
  obtain ⟨-, s, -, -, -, -, hspells⟩ := read_eq_ok_iff.1 h
  exact hspells.regular

theorem Regular.distinct {digitLimit : Nat} (h : v.Regular digitLimit) : v.Distinct :=
  h.imp₂ h (fun _ _ _ => trivial) (fun _ _ _ => trivial) fun _ hnames _ => hnames

end Json

end ShapedJson
