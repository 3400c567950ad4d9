import ShapedJson.Answer.Decode
import ShapedJson.Proofs.Json.Denoted
import ShapedJson.Proofs.Json.Writing

/-!
# Decoded answers

An answer is decoded exactly when its body is a document of the grammar: the mark that is refused
before anything is read starts no document.  What is decoded keeps the bounds for answers, and a
value within them is decoded again from its compact text.
-/

namespace ShapedJson

namespace Json

theorem val_lt_of_isJsonBlank {c : CodePoint} (h : Text.isJsonBlank c = true) : c.val < 0x80 := by
  simp only [Text.isJsonBlank, Bool.or_eq_true, decide_eq_true_eq] at h
  rcases h with ((rfl | rfl) | rfl) | rfl <;> decide

/-- A document starts with a code point of ASCII. -/
theorem SpellsDocument.val_lt {rules : ReadRules} {c : CodePoint} {rest : Text} {v : Json}
    (h : SpellsDocument rules (c :: rest) v) : c.val < 0x80 := by
  obtain ⟨before, s, after, hbefore, -, htext, hspells⟩ := h
  cases before with
  | nil =>
      obtain ⟨d, tail, rfl, hopens⟩ := hspells.exists_eq_cons
      cases htext
      exact hopens.2.2.2
  | cons b before =>
      cases htext
      exact val_lt_of_isJsonBlank (hbefore c (by simp))

/-- What is written of a value within the bounds denotes the value, when all its numbers are
whole. -/
theorem spellsValue_write_self {rules : ReadRules} {style : JsonStyle} {v : Json}
    (hstyle : style.Regular) (hheight : v.height ≤ rules.nestingLimit)
    (hregular : v.Regular rules.digitLimit) (hfree : v.FloatFree)
    (hencodable : style.asciiOnly = true → v.Encodable) :
    SpellsValue rules rules.nestingLimit (v.write style 0) v := by
  have hfits : v.Writable rules.digitLimit false := by
    refine hregular.imp₂ hfree (fun n hshort hn => ?_) (fun _ _ _ => nofun) fun _ _ _ _ _ => nofun
    obtain ⟨k, rfl⟩ := hn
    exact hshort
  have hwritable : v.Writable rules.digitLimit style.asciiOnly := by
    cases hascii : style.asciiOnly with
    | false => exact hfits
    | true =>
        exact hfits.imp₂ (hencodable hascii) (fun _ hn _ => hn) (fun _ _ hs _ => hs)
          fun _ _ hnames name hname _ => hnames name hname
  have hspells := spellsValue_write hstyle hwritable hheight 0
  rwa [reread_eq_self hfree hregular.distinct] at hspells

/-- The compact text of a value within the bounds is read as the value again, when all its numbers
are whole. -/
theorem read_write_self {rules : ReadRules} {v : Json} (hheight : v.height ≤ rules.nestingLimit)
    (hregular : v.Regular rules.digitLimit) (hfree : v.FloatFree) :
    read rules (v.write .compactUnicode 0) = .ok v :=
  read_eq_ok_iff.2 (spellsValue_write_self JsonStyle.regular_compactUnicode hheight hregular hfree
    nofun).document

end Json

namespace Answer

theorem readUnmarked_eq_ok_iff {t : Text} {v : Json} :
    readUnmarked t = .ok v ↔ Json.read rules t = .ok v := by
  cases t with
  | nil => exact Iff.rfl
  | cons c rest =>
      rw [readUnmarked]
      by_cases hmark : c.val = 0xFEFF
      · -- the mark is refused, and reading would refuse it as well
        rw [if_pos hmark]
        refine ⟨nofun, fun h => ?_⟩
        have hlt := (Json.read_eq_ok_iff.1 h).val_lt
        omega
      · rw [if_neg hmark]

theorem decode_eq_ok_iff {stripFences : Bool} {raw : Text} {v : Json} :
    decode stripFences raw = .ok v ↔ Json.read rules (body stripFences raw) = .ok v := by
  rw [decode, Results.mapError_eq_ok_iff, readUnmarked_eq_ok_iff]

theorem regular_of_decode {stripFences : Bool} {raw : Text} {v : Json}
    (h : decode stripFences raw = .ok v) :
    v.height ≤ rules.nestingLimit ∧ v.Regular rules.digitLimit :=
  Json.regular_of_read (decode_eq_ok_iff.1 h)

/-- The compact text of a value within the bounds is decoded to the value again, when all its
numbers are whole. -/
theorem decode_write {v : Json} (hheight : v.height ≤ rules.nestingLimit)
    (hregular : v.Regular rules.digitLimit) (hfree : v.FloatFree) :
    decode false (v.write .compactUnicode 0) = .ok v :=
  decode_eq_ok_iff.2 (Json.read_write_self hheight hregular hfree)

end Answer

end ShapedJson
