import ShapedJson.Json.Writer
import ShapedJson.Proofs.Json.Strings
import ShapedJson.Proofs.Text.Encodable

/-!
# Strings as they are written

A written string is one of the grammar, and denotes the string again.  Where everything beyond
ASCII is escaped this needs a string without surrogates: two halves side by side would be read
as a pair.
-/

namespace ShapedJson

namespace Text

theorem hexValue?_hexDigit {d : Nat} (h : d < 16) : (hexDigit d).hexValue? = some d := by
  revert d
  decide

theorem unit?_hex {n : Nat} (h : n < 0x10000) :
    ∃ a b c d, hex 4 n = [a, b, c, d] ∧ Json.unit? a b c d = some (Fin.ofNat _ n) := by
  refine ⟨_, _, _, _, rfl, ?_⟩
  simp only [Json.unit?, hexValue?_hexDigit (Nat.mod_lt _ (by decide : 0 < 16))]
  congr 2
  omega

end Text

namespace Json

theorem SpellsParts.append {s t : Text} {ps qs : List StringPart} (hs : SpellsParts s ps)
    (ht : SpellsParts t qs) : SpellsParts (s ++ t) (ps ++ qs) := by
  induction hs with
  | nil => exact ht
  | cons first others ih =>
      rw [List.append_assoc]
      exact .cons first ih

theorem SpellsParts.single {s : Text} {p : StringPart} (h : SpellsPart s p) :
    SpellsParts s [p] := by
  simpa using SpellsParts.cons h .nil

/-- The text is an escape of the code point, whatever parts come after it. -/
def Escapes (s : Text) (c : CodePoint) : Prop :=
  ∃ ps, SpellsParts s ps ∧ ∀ qs, joinParts (ps ++ qs) = c :: joinParts qs

theorem escapes_of_literal {s : Text} {c : CodePoint} (h : SpellsPart s (.literal c)) :
    Escapes s c :=
  ⟨_, .single h, fun qs => joinParts_literal c qs⟩

theorem spellsPart_unicode {n : Nat} (h : n < 0x10000) :
    SpellsPart (text "\\u" ++ Text.hex 4 n) (.unit (Fin.ofNat _ n)) := by
  obtain ⟨a, b, c, d, hhex, hunit⟩ := Text.unit?_hex h
  rw [hhex]
  exact .unicode hunit

/-- The two halves that a number of twenty bits is split into. -/
theorem joinParts_halves {n : Nat} (h : n < 0x100000) (ps : List StringPart) :
    joinParts (.unit (Fin.ofNat _ (0xD800 + n / 0x400)) ::
      .unit (Fin.ofNat _ (0xDC00 + n % 0x400)) :: ps) =
      (Fin.ofNat _ (0x10000 + n) : CodePoint) :: joinParts ps := by
  have hhigh : (Fin.ofNat 0x110000 (0xD800 + n / 0x400)).val = 0xD800 + n / 0x400 :=
    Nat.mod_eq_of_lt (by omega)
  have hlow : (Fin.ofNat 0x110000 (0xDC00 + n % 0x400)).val = 0xDC00 + n % 0x400 :=
    Nat.mod_eq_of_lt (by omega)
  have hpair : CodePoint.ofSurrogates (Fin.ofNat _ (0xD800 + n / 0x400))
      (Fin.ofNat _ (0xDC00 + n % 0x400)) = Fin.ofNat _ (0x10000 + n) := by
    rw [CodePoint.ofSurrogates, hhigh, hlow]
    apply Fin.ext
    show (0x10000 + (0xD800 + n / 0x400 - 0xD800) * 0x400 + (0xDC00 + n % 0x400 - 0xDC00)) %
      0x110000 = (0x10000 + n) % 0x110000
    omega
  rw [joinParts_pair, hpair]
  · simp only [CodePoint.isHighSurrogate, hhigh, Bool.and_eq_true, decide_eq_true_eq]
    omega
  · simp only [CodePoint.isLowSurrogate, hlow, Bool.and_eq_true, decide_eq_true_eq]
    omega

/-- An escape by units denotes its code point: one unit that is no surrogate, or a pair. -/
theorem escapes_unicodeEscape {c : CodePoint} (h : c.isSurrogate = false) :
    Escapes (Text.unicodeEscape c) c := by
  have hc := c.isLt
  simp only [CodePoint.isSurrogate, Bool.and_eq_false_iff, decide_eq_false_iff_not] at h
  unfold Text.unicodeEscape
  split
  · rename_i hplane
    have hunit : Fin.ofNat 0x110000 c.val = c := Fin.ext (Nat.mod_eq_of_lt hc)
    have hpart := spellsPart_unicode hplane
    rw [hunit] at hpart
    refine ⟨_, .single hpart, fun qs => joinParts_single fun hhigh => ?_⟩
    -- a code point that is no surrogate is not the first half of a pair
    simp only [CodePoint.isHighSurrogate, Bool.and_eq_true, decide_eq_true_eq] at hhigh
    omega
  · rename_i hplane
    generalize hn : c.val - 0x10000 = n
    have hlt : n < 0x100000 := by omega
    have hwhole : (Fin.ofNat _ (0x10000 + n) : CodePoint) = c := by
      apply Fin.ext
      show (0x10000 + n) % 0x110000 = c.val
      omega
    refine ⟨[.unit (Fin.ofNat _ (0xD800 + n / 0x400)), .unit (Fin.ofNat _ (0xDC00 + n % 0x400))],
      ?_, fun qs => ?_⟩
    · show SpellsParts (text "\\u" ++ Text.hex 4 _ ++ text "\\u" ++ Text.hex 4 _) _
      rw [List.append_assoc]
      exact .cons (spellsPart_unicode (by omega)) (.single (spellsPart_unicode (by omega)))
    · show joinParts (.unit _ :: .unit _ :: qs) = _
      rw [joinParts_halves hlt, hwhole]

theorem escapes_jsonCodePoint {asciiOnly : Bool} {c : CodePoint}
    (h : asciiOnly = true → c.isSurrogate = false) :
    Escapes (Text.jsonCodePoint asciiOnly c) c := by
  unfold Text.jsonCodePoint
  split
  · rename_i hc
    rcases hc with rfl | rfl <;> exact escapes_of_literal (.short (by decide))
  · rename_i hplain
    rw [not_or] at hplain
    split
    · rename_i hc
      subst hc
      exact escapes_of_literal (.short (by decide))
    · split
      · rename_i hc
        subst hc
        exact escapes_of_literal (.short (by decide))
      · split
        · rename_i hc
          subst hc
          exact escapes_of_literal (.short (by decide))
        · split
          · rename_i hc
            obtain rfl : c = 0x8 := Fin.ext hc
            exact escapes_of_literal (.short (by decide))
          · split
            · rename_i hc
              obtain rfl : c = 0xC := Fin.ext hc
              exact escapes_of_literal (.short (by decide))
            · split
              · -- the other controls are escaped by number, and none of them is a surrogate
                rename_i hcontrol
                refine escapes_unicodeEscape ?_
                simp only [CodePoint.isSurrogate, Bool.and_eq_false_iff, decide_eq_false_iff_not]
                omega
              · rename_i hcontrol
                split
                · rename_i hbeyond
                  exact escapes_unicodeEscape (h hbeyond.1)
                · exact escapes_of_literal (.plain hplain.1 hplain.2 hcontrol)

/-- A written string denotes the string. -/
theorem spellsString_flatMap {asciiOnly : Bool} {s : Text} (h : asciiOnly = true → s.Encodable) :
    SpellsString (s.flatMap (Text.jsonCodePoint asciiOnly)) s := by
  induction s with
  | nil => exact ⟨[], .nil, .nil⟩
  | cons c s ih =>
      obtain ⟨ps, hps, hjoin⟩ := escapes_jsonCodePoint (c := c) fun ha =>
        (Text.encodable_cons.1 (h ha)).1
      obtain ⟨qs, hqs, hrest⟩ := ih fun ha => (Text.encodable_cons.1 (h ha)).2
      refine ⟨ps ++ qs, ?_, joins_iff.2 (by rw [hjoin, joins_iff.1 hrest])⟩
      rw [List.flatMap_cons]
      exact hps.append hqs

end Json

end ShapedJson
