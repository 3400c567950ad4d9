import ShapedJson.Proofs.Json.Reading
import ShapedJson.Proofs.Text.Trimming

/-!
# Where values start and end

The text of a value has no padding at either end.  An array or an object ends with its own
bracket, so its text is no proper start of the text of another one, whatever padding stands before
the two.
-/

namespace ShapedJson

theorem CodePoint.isBlank_of_isDigit {c : CodePoint} (h : c.isDigit = true) : c.isBlank = false := by
  simp only [CodePoint.isDigit, Bool.and_eq_true, decide_eq_true_eq] at h
  simp only [CodePoint.isBlank, CodePoint.isWhiteSpace, Bool.or_eq_false_iff,
    Bool.and_eq_false_iff, decide_eq_false_iff_not, beq_eq_false_iff_ne]
  omega

theorem CodePoint.isBlank_of_isJsonBlank {c : CodePoint} (h : Text.isJsonBlank c = true) :
    c.isBlank = true := by
  simp only [Text.isJsonBlank, Bool.or_eq_true, decide_eq_true_eq] at h
  rcases h with ((rfl | rfl) | rfl) | rfl <;> decide

theorem Text.IsBlank.isPadding {t : Text} (h : t.IsBlank) : t.IsPadding :=
  fun c hc => CodePoint.isBlank_of_isJsonBlank (h c hc)

/-! ## The last digit of a numeral -/

namespace Text

/-- The last code point is a digit. -/
def EndsInDigit (t : Text) : Prop := ∃ init d, t = init ++ [d] ∧ d.isDigit = true

theorem EndsInDigit.append {t : Text} (h : t.EndsInDigit) (s : Text) : (s ++ t).EndsInDigit := by
  obtain ⟨init, d, rfl, hd⟩ := h
  exact ⟨s ++ init, d, (List.append_assoc ..).symm, hd⟩

theorem IsDigits.endsInDigit {t : Text} (h : t.IsDigits) : t.EndsInDigit :=
  ⟨t.dropLast, t.getLast h.1, (List.dropLast_append_getLast h.1).symm, h.2 _ (List.getLast_mem h.1)⟩

end Text

namespace Numeral

variable {t whole f fraction e : Text} {exponent : Option (Bool × Text)}

theorem Whole.endsInDigit (h : Whole whole) : whole.EndsInDigit := by
  cases h with
  | zero => exact ⟨[], '0', rfl, by decide⟩
  | positive nonzero digits => exact digits.endsInDigit

theorem Fraction.endsInDigit (h : Fraction f fraction) {s : Text} (hs : s.EndsInDigit) :
    (s ++ f).EndsInDigit := by
  cases h with
  | none => rwa [List.append_nil]
  | digits digits => exact (digits.endsInDigit.append ['.']).append s

theorem Exponent.endsInDigit (h : Exponent e exponent) {s : Text} (hs : s.EndsInDigit) :
    (s ++ e).EndsInDigit := by
  cases h with
  | none => rwa [List.append_nil]
  | unsigned mark digits => exact (digits.endsInDigit.append [_]).append s
  | plus mark digits => exact (digits.endsInDigit.append [_, '+']).append s
  | minus mark digits => exact (digits.endsInDigit.append [_, '-']).append s

theorem Spells.endsInDigit {n : Numeral} (h : Spells t n) : t.EndsInDigit := by
  obtain ⟨hw, hf, he⟩ := h
  rename_i negative whole f fraction e exponent
  have hparts : (whole ++ f ++ e).EndsInDigit := he.endsInDigit (hf.endsInDigit hw.endsInDigit)
  cases negative with
  | false => exact hparts
  | true => exact hparts.append ['-']

end Numeral

namespace Json

variable {rules : ReadRules} {nesting : Nat} {s t x y : Text} {v w : Json}

/-! ## The ends of values -/

/-- A code point that the text of a value can start with. -/
def Starts (c : CodePoint) : Prop := StartsScalar c ∨ c ∈ text "\"[\x7b"

theorem Starts.isBlank {c : CodePoint} (h : Starts c) : c.isBlank = false := by
  have hall : (text "\"[\x7b-tfnNI").all (fun c => !c.isBlank) = true := by decide
  rcases h with (h | h) | h
  · exact CodePoint.isBlank_of_isDigit h
  · simpa using List.all_eq_true.1 hall c (List.mem_append_right (text "\"[\x7b") h)
  · simpa using List.all_eq_true.1 hall c (List.mem_append_left (text "-tfnNI") h)

theorem SpellsValue.starts (h : SpellsValue rules nesting t v) :
    ∃ c tail, t = c :: tail ∧ Starts c := by
  cases h with
  | scalar word =>
      obtain ⟨c, tail, rfl, hc⟩ := word.exists_eq_cons
      exact ⟨c, tail, rfl, .inl hc⟩
  | string | emptyArray | array | emptyObject | object => exact ⟨_, _, rfl, .inr (by decide)⟩

theorem SpellsValue.isFlush (h : SpellsValue rules nesting t v) : t.IsFlush := by
  obtain ⟨c, tail, rfl, hc⟩ := h.starts
  exact ⟨c, tail, rfl, hc.isBlank⟩

/-- The text of a value has no padding at either end. -/
theorem SpellsValue.isTrimmed (h : SpellsValue rules nesting t v) : t.IsTrimmed := by
  refine ⟨h.isFlush, ?_⟩
  cases h with
  | scalar word =>
      cases word with
      | literal word =>
          rcases mem_literals_iff.1 word with ⟨rfl, rfl⟩ | ⟨rfl, rfl⟩ | ⟨rfl, rfl⟩
          · exact ⟨text "nul", 'l', rfl, by decide⟩
          · exact ⟨text "tru", 'e', rfl, by decide⟩
          · exact ⟨text "fals", 'e', rfl, by decide⟩
      | constant allowed word =>
          rcases mem_constants_iff.1 word with ⟨rfl, rfl⟩ | ⟨rfl, rfl⟩ | ⟨rfl, rfl⟩
          · exact ⟨text "Na", 'N', rfl, by decide⟩
          · exact ⟨text "Infinit", 'y', rfl, by decide⟩
          · exact ⟨text "-Infinit", 'y', rfl, by decide⟩
      | number spells bound =>
          obtain ⟨init, d, rfl, hd⟩ := spells.endsInDigit
          exact ⟨init, d, rfl, CodePoint.isBlank_of_isDigit hd⟩
  | @string _ body _ spells =>
      exact ⟨text "\"" ++ body, '"', (List.append_assoc ..).symm, by decide⟩
  | @emptyArray _ inside blank =>
      exact ⟨text "[" ++ inside, ']', (List.append_assoc ..).symm, by decide⟩
  | @array _ before t _ blank inside =>
      exact ⟨text "[" ++ (before ++ t), ']', by simp [text], by decide⟩
  | @emptyObject _ inside blank =>
      exact ⟨text "\x7b" ++ inside, '\x7d', (List.append_assoc ..).symm, by decide⟩
  | @object _ before t _ _ blank inside merges =>
      exact ⟨text "\x7b" ++ (before ++ t), '\x7d', by simp [text], by decide⟩

/-- A document without its padding is the text of its value. -/
theorem SpellsDocument.spellsValue_trim (h : SpellsDocument rules t v) :
    SpellsValue rules rules.nestingLimit t.trim v := by
  obtain ⟨before, s, after, hbefore, hafter, rfl, hspells⟩ := h
  rw [Text.trim_append hbefore.isPadding hafter.isPadding, hspells.isTrimmed.trim_eq]
  exact hspells

/-! ## Containers -/

/-- Arrays and objects are the values that start with an opening bracket. -/
theorem SpellsValue.isContainer_iff {c : CodePoint} {tail : Text}
    (h : SpellsValue rules nesting (c :: tail) v) : v.IsContainer ↔ c = '[' ∨ c = '\x7b' := by
  generalize ht : c :: tail = t at h
  cases h with
  | scalar word =>
      obtain ⟨d, rest, rfl, hd⟩ := word.exists_eq_cons
      obtain rfl := (List.cons.inj ht).1
      exact iff_of_false word.not_isContainer
        (by simp [hd.opensScalar.2.2.1, hd.opensScalar.2.2.2])
  | string spells =>
      obtain rfl := (List.cons.inj ht).1
      exact iff_of_false id (by decide)
  | emptyArray | array | emptyObject | object =>
      obtain rfl := (List.cons.inj ht).1
      exact iff_of_true trivial (by decide)

/-- Of two texts that are the same up to what follows a container, the one of the container is the
other one. -/
theorem SpellsValue.eq_of_append_eq (h : SpellsValue rules nesting s v) (hv : v.IsContainer)
    (h' : SpellsValue rules nesting t w) (heq : s ++ x = t ++ y) : s = t ∧ v = w := by
  -- the two values start alike, so the second one is a container as well
  have hw : w.IsContainer := by
    obtain ⟨c, rest, rfl, -⟩ := h.starts
    obtain ⟨d, rest', rfl, -⟩ := h'.starts
    obtain rfl : c = d := (List.cons.inj heq).1
    exact h'.isContainer_iff.2 (h.isContainer_iff.1 hv)
  -- a reader with enough steps for both takes each of them from the front of the same text
  have hread := readValue_complete (2 * s.length + 2 * t.length) x h (by omega) (absurd hv)
  have hread' := readValue_complete (2 * s.length + 2 * t.length) y h' (by omega) (absurd hw)
  rw [heq, hread'] at hread
  cases hread
  exact ⟨List.append_cancel_right heq, rfl⟩

end Json

end ShapedJson
