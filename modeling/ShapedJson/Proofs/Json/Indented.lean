import ShapedJson.Proofs.Answer.Decoding
import ShapedJson.Proofs.Text.Lines

/-!
# Indented texts

The indented text of a value has no blank line, since everything that could break a line is
escaped.  It determines the value, when all numbers are whole and there are no surrogates.
-/

namespace ShapedJson

namespace Text

theorem lineBreak_ne_of_isDigit {c : CodePoint} (h : c.isDigit = true) : lineBreak ≠ c := by
  rintro rfl
  exact absurd h (by decide)

theorem lineBreak_not_mem_ofInt (n : Int) : lineBreak ∉ ofInt n := by
  have hnat : ∀ n, lineBreak ∉ ofNat n := fun n hmem =>
    lineBreak_ne_of_isDigit (isDigit_of_mem_ofNat hmem) rfl
  cases n with
  | ofNat n => exact hnat n
  | negSucc n =>
      rintro (_ | ⟨_, hmem⟩)
      exact hnat _ hmem

theorem ofInt_ne_nil (n : Int) : ofInt n ≠ [] := by
  cases n with
  | ofNat n => exact ofNat_ne_nil n
  | negSucc n => exact List.cons_ne_nil _ _

theorem lineBreak_not_mem_hex (width n : Nat) : lineBreak ∉ hex width n := by
  have hdigit : ∀ d < 16, lineBreak ≠ hexDigit d := by decide
  induction width generalizing n with
  | zero => exact List.not_mem_nil
  | succ width ih =>
      rw [hex, List.mem_append, List.mem_singleton]
      rintro (h | h)
      · exact ih _ h
      · exact hdigit _ (Nat.mod_lt _ (by decide)) h

theorem lineBreak_not_mem_unicodeEscape (c : CodePoint) : lineBreak ∉ unicodeEscape c := by
  have hmark : lineBreak ∉ text "\\u" := by decide
  unfold unicodeEscape
  split <;> simp [hmark, lineBreak_not_mem_hex]

/-- A line break inside a string is escaped, and no escape has one. -/
theorem lineBreak_not_mem_jsonCodePoint (asciiOnly : Bool) (c : CodePoint) :
    lineBreak ∉ jsonCodePoint asciiOnly c := by
  by_cases hc : lineBreak = c
  · subst hc
    cases asciiOnly <;> decide
  · have hslash : lineBreak ≠ '\\' := by decide
    unfold jsonCodePoint
    split_ifs
    · simp [hslash, hc]
    · decide
    · decide
    · decide
    · decide
    · decide
    · exact lineBreak_not_mem_unicodeEscape c
    · exact lineBreak_not_mem_unicodeEscape c
    · simpa using hc

theorem lined_jsonString (asciiOnly : Bool) (t : Text) : Lined (t.jsonString asciiOnly) := by
  have hquote : lineBreak ∉ text "\"" := by decide
  refine lined_of_unbroken (List.append_ne_nil_of_right_ne_nil _ (by decide)) ?_
  simp [jsonString, hquote, lineBreak_not_mem_jsonCodePoint]

end Text

namespace Json

open Text (Lined lineBreak)

variable {s t : Text} {v w : Json}

/-- A gap starts a line. -/
theorem lined_append_gap (hs : Lined s) (ht : Lined t) (depth : Nat) :
    Lined (s ++ (JsonStyle.indented.gap depth ++ t)) := by
  refine Text.lined_append_break_iff.2 ⟨hs, ht.unbroken_append fun hmem => ?_⟩
  exact absurd (List.eq_of_mem_replicate hmem) (by decide)

theorem lined_comma : Lined (text ",") := Text.lined_of_unbroken (by decide) (by decide)

theorem lined_append_writeItems {depth : Nat} {items : List Json}
    (h : ∀ v ∈ items, Lined (v.write .indented depth)) (hs : Lined s) :
    Lined (s ++ writeItems .indented depth items) := by
  induction items generalizing s with
  | nil => simpa [writeItems] using hs
  | cons v rest ih =>
      have hv := lined_append_gap (hs.append lined_comma) (h v (by simp)) depth
      have hrest := ih (fun w hw => h w (List.mem_cons_of_mem _ hw)) hv
      rw [writeItems]
      simpa only [List.append_assoc] using hrest

/-- The name of a field and the colon after it stand in the line of the value. -/
theorem lined_name_append (k : Text) (ht : Lined t) :
    Lined (k.jsonString JsonStyle.indented.asciiOnly ++ (JsonStyle.indented.colon ++ t)) :=
  (Text.lined_jsonString _ k).append (ht.unbroken_append (by decide))

theorem lined_append_writeFields {depth : Nat} {fields : List (Text × Json)}
    (h : ∀ f ∈ fields, Lined (f.2.write .indented depth)) (hs : Lined s) :
    Lined (s ++ writeFields .indented depth fields) := by
  induction fields generalizing s with
  | nil => simpa [writeFields] using hs
  | cons f rest ih =>
      obtain ⟨k, v⟩ := f
      have hv := lined_append_gap (hs.append lined_comma)
        (lined_name_append k (h (k, v) (by simp))) depth
      have hrest := ih (fun g hg => h g (List.mem_cons_of_mem _ hg)) hv
      rw [writeFields]
      simpa only [List.append_assoc] using hrest

/-- No line of the indented text of a value is blank, when all its numbers are whole. -/
theorem lined_write (hfree : v.FloatFree) : ∀ depth, Lined (v.write .indented depth) := by
  have hword : ∀ {word : Text}, word ≠ [] ∧ lineBreak ∉ word → Lined word :=
    fun h => Text.lined_of_unbroken h.1 h.2
  unfold FloatFree at hfree
  induction v with
  | null => exact fun _ => hword (by rw [write]; decide)
  | bool b =>
      intro depth
      cases b <;> exact hword (by rw [write]; decide)
  | number n =>
      obtain ⟨k, rfl⟩ := every_number.1 hfree
      exact fun _ => hword ⟨Text.ofInt_ne_nil k, Text.lineBreak_not_mem_ofInt k⟩
  | string s => exact fun _ => Text.lined_jsonString _ s
  | array items ih =>
      intro depth
      rw [every_array] at hfree
      cases items with
      | nil => exact hword (by rw [write]; decide)
      | cons v rest =>
          have hopen : Lined (text "[") := hword (by decide)
          have hclose : Lined (text "]") := hword (by decide)
          have hv := lined_append_gap hopen (ih v (by simp) (hfree v (by simp)) (depth + 1))
            (depth + 1)
          have hrest : ∀ w ∈ rest, Lined (w.write .indented (depth + 1)) := fun w hw =>
            ih w (List.mem_cons_of_mem _ hw) (hfree w (List.mem_cons_of_mem _ hw)) (depth + 1)
          have hitems := lined_append_writeItems hrest hv
          have hall := lined_append_gap hitems hclose depth
          rw [write]
          simpa only [List.append_assoc] using hall
  | object fields ih =>
      intro depth
      rw [every_object] at hfree
      cases fields with
      | nil => exact hword (by rw [write]; decide)
      | cons f rest =>
          obtain ⟨k, v⟩ := f
          have hopen : Lined (text "\x7b") := hword (by decide)
          have hclose : Lined (text "\x7d") := hword (by decide)
          have hv := lined_append_gap hopen (lined_name_append k
            (ih (k, v) (by simp) (hfree.2 (k, v) (by simp)) (depth + 1))) (depth + 1)
          have hrest : ∀ g ∈ rest, Lined (g.2.write .indented (depth + 1)) := fun g hg =>
            ih g (List.mem_cons_of_mem _ hg) (hfree.2 g (List.mem_cons_of_mem _ hg)) (depth + 1)
          have hfields := lined_append_writeFields hrest hv
          have hall := lined_append_gap hfields hclose depth
          rw [write]
          simpa only [List.append_assoc] using hall

/-- A value with whole numbers of so many digits at most, with distinct names, and without
surrogates. -/
structure Plain (digitLimit : Nat) (v : Json) : Prop where
  regular : v.Regular digitLimit
  floatFree : v.FloatFree
  encodable : v.Encodable

/-- Plain values of one indented text are the same. -/
theorem indented_injective {digitLimit : Nat} (hv : v.Plain digitLimit) (hw : w.Plain digitLimit)
    (h : v.indented = w.indented) : v = w := by
  -- a reader with room for both takes either of them from the text
  let rules : ReadRules := ⟨false, digitLimit, max v.height w.height⟩
  have hread : ∀ {u : Json}, u.Plain digitLimit → u.height ≤ rules.nestingLimit →
      read rules u.indented = .ok u := fun hu hheight =>
    read_eq_ok_iff.2 (spellsValue_write_self JsonStyle.regular_indented hheight hu.regular
      hu.floatFree fun _ => hu.encodable).document
  have hread_v := hread hv (Nat.le_max_left _ _)
  rw [h, hread hw (Nat.le_max_right _ _)] at hread_v
  exact (Except.ok.inj hread_v).symm

end Json

end ShapedJson
