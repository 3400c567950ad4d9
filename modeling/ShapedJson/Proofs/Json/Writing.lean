import ShapedJson.Proofs.Json.Escapes
import ShapedJson.Proofs.Json.Reading
import ShapedJson.Proofs.Json.Traits
import ShapedJson.Proofs.Text.Inline

/-!
# The writer and the grammar

What is written is a text of the grammar, in every style whose gaps are blanks.  It denotes the
value again, up to what the numerals of fractions denote and to fields of one name.  A value with
whole numbers only and distinct names is read back as it is.
-/

namespace ShapedJson

/-- The number that the written form of a number denotes. -/
def Number.reread (n : Number) : Number :=
  match Numeral.scan? (Text.ofNumber .json n) with
  | some (numeral, _) => numeral.value
  | none => n

/-- A whole number of so many digits at most, or a finite fraction. -/
def Number.Fits (digitLimit : Nat) : Number → Prop
  | .whole n => (Text.ofNat n.natAbs).length ≤ digitLimit
  | .real x => x.isFinite = true

/-- A style whose gaps are blanks of the grammar. -/
structure JsonStyle.Regular (style : JsonStyle) : Prop where
  gap : ∀ depth, (style.gap depth).IsBlank
  colon : ∃ blanks : Text, blanks.IsBlank ∧ style.colon = text ":" ++ blanks

theorem JsonStyle.regular_compactUnicode : compactUnicode.Regular :=
  ⟨fun _ => Text.isBlank_nil, [], Text.isBlank_nil, rfl⟩

theorem JsonStyle.regular_indented : indented.Regular := by
  refine ⟨fun depth c hc => ?_, [' '], fun c hc => ?_, rfl⟩
  · rcases List.mem_cons.1 hc with rfl | hc
    · decide
    · rw [List.eq_of_mem_replicate hc]
      decide
  · rw [List.mem_singleton.1 hc]
    decide

namespace Json

mutual

/-- The value that the written form of a value denotes. -/
def reread : Json → Json
  | .number n => .number n.reread
  | .array items => .array (rereadItems items)
  | .object fields => .object (Fields.distinct (rereadFields fields))
  | v => v

/-- The items that their written forms denote. -/
def rereadItems : List Json → List Json
  | [] => []
  | v :: rest => reread v :: rereadItems rest

/-- The fields that their written forms denote. -/
def rereadFields : List (Text × Json) → List (Text × Json)
  | [] => []
  | (k, v) :: rest => (k, reread v) :: rereadFields rest

end

/-- A value whose written form is of the grammar: its numbers fit, and where only ASCII is
written its texts have no surrogates. -/
def Writable (digitLimit : Nat) (asciiOnly : Bool) (v : Json) : Prop :=
  v.Every ⟨Number.Fits digitLimit, fun s => asciiOnly = true → s.Encodable,
    fun names => ∀ name ∈ names, asciiOnly = true → name.Encodable⟩

variable {rules : ReadRules} {style : JsonStyle}

theorem reread_eq_of_spells {n : Number} {numeral : Numeral}
    (h : numeral.Spells (Text.ofNumber .json n)) : n.reread = numeral.value := by
  have hscan := Numeral.scan?_complete h Text.endsNumeral_nil
  rw [List.append_nil] at hscan
  rw [Number.reread, hscan]

/-- The numeral of a whole number denotes it. -/
theorem reread_whole (n : Int) : (Number.whole n).reread = .whole n := by
  rw [reread_eq_of_spells (n := .whole n) (Text.spells_ofInt n)]
  simp only [Numeral.value, Numeral.isWhole, List.isEmpty_nil, Option.isNone_none, Bool.and_self,
    if_true, Text.decimalValue_ofNat, Number.whole.injEq, decide_eq_true_eq]
  split <;> omega

theorem spellsScalar_number {n : Number} (h : n.Fits rules.digitLimit) :
    SpellsScalar rules (Text.ofNumber .json n) (.number n.reread) := by
  cases n with
  | whole n =>
      rw [reread_eq_of_spells (n := .whole n) (Text.spells_ofInt n)]
      exact .number (Text.spells_ofInt n) fun _ => h
  | real x =>
      obtain ⟨numeral, hspells, hwhole⟩ := Text.spells_ofBinary64 .json h
      rw [reread_eq_of_spells (n := .real x) hspells]
      refine .number hspells fun hw => ?_
      rw [hwhole] at hw
      cases hw

theorem spellsName_write (hstyle : style.Regular) {k : Text}
    (h : style.asciiOnly = true → k.Encodable) :
    SpellsName (k.jsonString style.asciiOnly ++ style.colon) k := by
  obtain ⟨blanks, hblanks, hcolon⟩ := hstyle.colon
  have hname := SpellsName.quoted (spellsString_flatMap h) Text.isBlank_nil hblanks
  rw [hcolon, Text.jsonString]
  simpa only [List.append_assoc, List.nil_append] using hname

/-- The items from one on are items of the grammar, with blanks after the last. -/
theorem spellsItems_write (hstyle : style.Regular) {nesting depth : Nat} {closing : Text}
    (hclosing : closing.IsBlank) {v : Json} {rest : List Json}
    (h : ∀ w ∈ v :: rest, SpellsValue rules nesting (w.write style depth) w.reread) :
    SpellsItems rules nesting (v.write style depth ++ (writeItems style depth rest ++ closing))
      (rereadItems (v :: rest)) := by
  induction rest generalizing v with
  | nil => exact .last (h v (by simp)) hclosing
  | cons w rest ih =>
      -- the comma and the gap before the next item belong to the text of the others
      have hrest := ih (v := w) fun u hu => h u (List.mem_cons_of_mem _ hu)
      have hmore := SpellsItems.more (h v (by simp)) Text.isBlank_nil (hstyle.gap depth) hrest
      rw [writeItems, rereadItems]
      simpa only [List.append_assoc, List.nil_append] using hmore

/-- The fields from one on are fields of the grammar, with blanks after the last. -/
theorem spellsFields_write (hstyle : style.Regular) {nesting depth : Nat} {closing : Text}
    (hclosing : closing.IsBlank) {k : Text} {v : Json} {rest : List (Text × Json)}
    (hnames : ∀ f ∈ (k, v) :: rest, style.asciiOnly = true → f.1.Encodable)
    (h : ∀ f ∈ (k, v) :: rest, SpellsValue rules nesting (f.2.write style depth) f.2.reread) :
    SpellsFields rules nesting
      (k.jsonString style.asciiOnly ++ style.colon ++
        (v.write style depth ++ (writeFields style depth rest ++ closing)))
      (rereadFields ((k, v) :: rest)) := by
  induction rest generalizing k v with
  | nil =>
      exact .last (spellsName_write hstyle (hnames (k, v) (by simp))) (h (k, v) (by simp)) hclosing
  | cons f rest ih =>
      obtain ⟨k', v'⟩ := f
      have hrest := ih (k := k') (v := v') (fun f hf => hnames f (List.mem_cons_of_mem _ hf))
        fun f hf => h f (List.mem_cons_of_mem _ hf)
      have hmore := SpellsFields.more (spellsName_write hstyle (hnames (k, v) (by simp)))
        (h (k, v) (by simp)) Text.isBlank_nil (hstyle.gap depth) hrest
      rw [writeFields, rereadFields]
      simpa only [List.append_assoc, List.nil_append] using hmore

/-- What is written is a text of the grammar. -/
theorem spellsValue_write (hstyle : style.Regular) {v : Json}
    (h : v.Writable rules.digitLimit style.asciiOnly) {nesting : Nat} (hheight : v.height ≤ nesting)
    (depth : Nat) : SpellsValue rules nesting (v.write style depth) v.reread := by
  unfold Writable at h
  induction v generalizing nesting depth with
  | null => exact .scalar (.literal (by simp [literals, write, reread]))
  | bool b =>
      cases b with
      | true => exact .scalar (.literal (by simp [literals, write, reread]))
      | false => exact .scalar (.literal (by simp [literals, write, reread]))
  | number n => exact .scalar (spellsScalar_number (every_number.1 h))
  | string s =>
      have hs := spellsString_flatMap (every_string.1 h)
      rw [write, Text.jsonString, List.append_assoc]
      exact .string hs
  | array items ih =>
      rw [height] at hheight
      obtain ⟨nesting, rfl⟩ : ∃ n, nesting = n + 1 := ⟨nesting - 1, by omega⟩
      rw [Nat.add_le_add_iff_right, heightOfItems_le_iff] at hheight
      rw [every_array] at h
      cases items with
      | nil => exact .emptyArray Text.isBlank_nil
      | cons v rest =>
          have hitems := spellsItems_write hstyle (hstyle.gap depth) fun w hw =>
            ih w hw (h w hw) (hheight w hw) (depth + 1)
          have harray := SpellsValue.array (hstyle.gap (depth + 1)) hitems
          rw [write, reread]
          simpa only [List.append_assoc] using harray
  | object fields ih =>
      rw [height] at hheight
      obtain ⟨nesting, rfl⟩ : ∃ n, nesting = n + 1 := ⟨nesting - 1, by omega⟩
      rw [Nat.add_le_add_iff_right, heightOfFields_le_iff] at hheight
      rw [every_object] at h
      cases fields with
      | nil => exact .emptyObject Text.isBlank_nil
      | cons f rest =>
          obtain ⟨k, v⟩ := f
          have hfields := spellsFields_write hstyle (hstyle.gap depth)
            (fun f hf => h.1 f.1 (List.mem_map_of_mem hf)) fun f hf =>
            ih f hf (h.2 f hf) (hheight f hf) (depth + 1)
          have hobject := SpellsValue.object (hstyle.gap (depth + 1)) hfields
            (Fields.merges_distinct _)
          rw [write, reread]
          simpa only [List.append_assoc] using hobject

/-- What is written is read back. -/
theorem read_write (hstyle : style.Regular) {v : Json}
    (h : v.Writable rules.digitLimit style.asciiOnly) (hheight : v.height ≤ rules.nestingLimit) :
    read rules (v.write style 0) = .ok v.reread :=
  read_eq_ok_iff.2 (spellsValue_write hstyle h hheight 0).document

theorem rereadItems_eq_self {items : List Json} (h : ∀ v ∈ items, v.reread = v) :
    rereadItems items = items := by
  induction items with
  | nil => rfl
  | cons v rest ih =>
      rw [rereadItems, h v (by simp), ih fun w hw => h w (List.mem_cons_of_mem _ hw)]

theorem rereadFields_eq_self {fields : List (Text × Json)} (h : ∀ f ∈ fields, f.2.reread = f.2) :
    rereadFields fields = fields := by
  induction fields with
  | nil => rfl
  | cons f rest ih =>
      obtain ⟨k, v⟩ := f
      rw [rereadFields, ih fun g hg => h g (List.mem_cons_of_mem _ hg)]
      exact congrArg (fun w => (k, w) :: rest) (h (k, v) (by simp))

/-- A value with whole numbers only and distinct names is what its written form denotes. -/
theorem reread_eq_self {v : Json} (hnumbers : v.FloatFree) (hnames : v.Distinct) :
    v.reread = v := by
  unfold FloatFree at hnumbers
  unfold Distinct at hnames
  induction v with
  | null | bool b | string s => rfl
  | number n =>
      obtain ⟨k, rfl⟩ := every_number.1 hnumbers
      rw [reread, reread_whole]
  | array items ih =>
      rw [every_array] at hnumbers hnames
      rw [reread, rereadItems_eq_self fun v hv => ih v hv (hnumbers v hv) (hnames v hv)]
  | object fields ih =>
      rw [every_object] at hnumbers hnames
      rw [reread, rereadFields_eq_self fun f hf => ih f hf (hnumbers.2 f hf) (hnames.2 f hf),
        Fields.distinct_eq_self hnames.1]

end Json

/-! ## What is written can be encoded -/

namespace Text

theorem encodable_unicodeEscape (c : CodePoint) : (unicodeEscape c).Encodable := by
  unfold unicodeEscape
  split <;> simp

theorem encodable_jsonCodePoint {c : CodePoint} :
    (jsonCodePoint false c).Encodable ↔ c.isSurrogate = false := by
  -- what is escaped is ASCII, and its escape too
  have hascii : ∀ {d : CodePoint} {t : Text}, d.val < 0x80 → t.Encodable →
      (t.Encodable ↔ d.isSurrogate = false) := by
    intro d t hd ht
    refine iff_of_true ht ?_
    simp only [CodePoint.isSurrogate, Bool.and_eq_false_iff, decide_eq_false_iff_not]
    omega
  unfold jsonCodePoint
  split
  · rename_i hc
    rcases hc with rfl | rfl <;> exact hascii (by decide) (by simp)
  · split
    · rename_i hc
      exact hascii (by rw [hc]; decide) (by simp)
    · split
      · rename_i hc
        exact hascii (by rw [hc]; decide) (by simp)
      · split
        · rename_i hc
          exact hascii (by rw [hc]; decide) (by simp)
        · split
          · exact hascii (by omega) (by simp)
          · split
            · exact hascii (by omega) (by simp)
            · split
              · exact hascii (by omega) (encodable_unicodeEscape c)
              · simp

theorem encodable_jsonString {t : Text} : (t.jsonString false).Encodable ↔ t.Encodable := by
  rw [jsonString, encodable_append, encodable_append, encodable_flatMap]
  simp only [encodable_text, encodable_jsonCodePoint, true_and, and_true]
  rfl

end Text

namespace Json

section

open JsonStyle (compactUnicode)

theorem encodable_gap (depth : Nat) : (compactUnicode.gap depth).Encodable := Text.encodable_nil

theorem encodable_name {k : Text} :
    (k.jsonString compactUnicode.asciiOnly ++ compactUnicode.colon).Encodable ↔ k.Encodable := by
  have hcolon : compactUnicode.colon.Encodable := Text.encodable_text ":"
  rw [Text.encodable_append]
  exact (and_iff_left hcolon).trans Text.encodable_jsonString

theorem encodable_writeItems {depth : Nat} {items : List Json}
    (h : ∀ v ∈ items, (v.write compactUnicode depth).Encodable ↔ v.Encodable) :
    (writeItems compactUnicode depth items).Encodable ↔ ∀ v ∈ items, v.Encodable := by
  induction items with
  | nil => simp [writeItems]
  | cons v rest ih =>
      have hv := h v (by simp)
      have hrest := ih fun w hw => h w (List.mem_cons_of_mem _ hw)
      simp only [writeItems, Text.encodable_append, Text.encodable_text, encodable_gap, hv, hrest,
        true_and, List.forall_mem_cons]

theorem encodable_writeFields {depth : Nat} {fields : List (Text × Json)}
    (h : ∀ f ∈ fields, (f.2.write compactUnicode depth).Encodable ↔ f.2.Encodable) :
    (writeFields compactUnicode depth fields).Encodable ↔
      ∀ f ∈ fields, f.1.Encodable ∧ f.2.Encodable := by
  induction fields with
  | nil => simp [writeFields]
  | cons f rest ih =>
      obtain ⟨k, v⟩ := f
      have hv := h (k, v) (by simp)
      have hrest := ih fun g hg => h g (List.mem_cons_of_mem _ hg)
      have hk := encodable_name (k := k)
      rw [Text.encodable_append] at hk
      simp only [writeFields, Text.encodable_append, Text.encodable_text, encodable_gap, hk, hv,
        hrest, true_and, List.forall_mem_cons]

/-- The text of a value can be encoded exactly when no string and no name of it holds a
surrogate. -/
theorem encodable_write (v : Json) :
    ∀ depth, (v.write compactUnicode depth).Encodable ↔ v.Encodable := by
  induction v with
  | null => exact fun _ => iff_of_true (Text.encodable_text _) .null
  | bool b =>
      intro depth
      cases b <;> exact iff_of_true (Text.encodable_text _) (.bool _)
  | number n =>
      intro depth
      exact iff_of_true (Text.encodable_ofNumber .json (Text.encodable_text _)
        (Text.encodable_text _) n) (.number n trivial)
  | string s => exact fun _ => Text.encodable_jsonString.trans encodable_string.symm
  | array items ih =>
      intro depth
      rw [encodable_array]
      cases items with
      | nil => exact iff_of_true (Text.encodable_text _) (by simp)
      | cons v rest =>
          have hv := ih v (by simp) (depth + 1)
          have hrest := encodable_writeItems fun w hw =>
            ih w (List.mem_cons_of_mem _ hw) (depth + 1)
          simp only [write, Text.encodable_append, Text.encodable_text, encodable_gap, hv, hrest,
            true_and, and_true, List.forall_mem_cons]
  | object fields ih =>
      intro depth
      rw [encodable_object]
      cases fields with
      | nil => exact iff_of_true (Text.encodable_text _) (by simp)
      | cons f rest =>
          obtain ⟨k, v⟩ := f
          have hv := ih (k, v) (by simp) (depth + 1)
          have hrest := encodable_writeFields fun g hg =>
            ih g (List.mem_cons_of_mem _ hg) (depth + 1)
          have hk := encodable_name (k := k)
          rw [Text.encodable_append] at hk
          simp only [write, Text.encodable_append, Text.encodable_text, encodable_gap, hk, hv,
            hrest, true_and, and_true, List.forall_mem_cons]

end

end Json

end ShapedJson
