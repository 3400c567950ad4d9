import ShapedJson.Proofs.Json.Grammar

/-!
# The nesting of texts

The nesting of a text is the number of brackets that are open at its deepest place, those inside
of strings aside.  A text of the grammar closes all its brackets, and it needs leave for just as
many containers as its nesting says.
-/

namespace ShapedJson

namespace Text

/-- Where a scan for brackets stands. -/
inductive Place where
  | outside
  | inString
  | afterBackslash
  deriving DecidableEq

/-- A scan for brackets: its place, the brackets that are open, and the most that were. -/
structure BracketScan where
  place : Place
  opened : Nat
  deepest : Nat
  deriving DecidableEq

/-- The scan after one more code point. -/
def BracketScan.step (s : BracketScan) (c : CodePoint) : BracketScan :=
  match s.place with
  | .outside =>
    if c = '"' then { s with place := .inString }
    else if c = '[' ∨ c = '\x7b' then ⟨.outside, s.opened + 1, max s.deepest (s.opened + 1)⟩
    else if c = ']' ∨ c = '\x7d' then { s with opened := s.opened - 1 }
    else s
  | .inString =>
    if c = '"' then { s with place := .outside }
    else if c = '\\' then { s with place := .afterBackslash }
    else s
  | .afterBackslash => { s with place := .inString }

/-- The most brackets that are open at once, those inside of strings aside. -/
def nesting (t : Text) : Nat := (t.foldl BracketScan.step ⟨.outside, 0, 0⟩).deepest

example : nesting (text "[\x7b\"[\\\"[\": [1]\x7d, []]") = 3 := by decide

/-- A scan of the text opens so many brackets at most at once, closes them all again, and ends
outside of strings. -/
def Nests (t : Text) (depth : Nat) : Prop :=
  ∀ opened deepest, opened ≤ deepest → t.foldl BracketScan.step ⟨.outside, opened, deepest⟩ =
    ⟨.outside, opened, max deepest (opened + depth)⟩

variable {s t : Text} {m n : Nat}

theorem Nests.nesting_eq (h : t.Nests n) : t.nesting = n := by
  rw [nesting, h 0 0 (Nat.le_refl 0), Nat.zero_add, Nat.zero_max]

theorem Nests.append (hs : s.Nests m) (ht : t.Nests n) : (s ++ t).Nests (max m n) := by
  intro opened deepest hle
  rw [List.foldl_append, hs opened deepest hle, ht _ _ (by omega)]
  congr 1
  omega

theorem Nests.zero_append (hs : s.Nests 0) (ht : t.Nests n) : (s ++ t).Nests n := by
  have h := hs.append ht
  rwa [Nat.zero_max] at h

theorem Nests.append_zero (hs : s.Nests n) (ht : t.Nests 0) : (s ++ t).Nests n := by
  have h := hs.append ht
  rwa [Nat.max_zero] at h

/-- Brackets around a text open one more. -/
theorem Nests.bracketed (ht : t.Nests n) {opening closing : Text}
    (hopening : opening = text "[" ∨ opening = text "\x7b")
    (hclosing : closing = text "]" ∨ closing = text "\x7d") :
    Nests (opening ++ (t ++ closing)) (n + 1) := by
  intro opened deepest hle
  have hopen : opening.foldl BracketScan.step ⟨.outside, opened, deepest⟩ =
      ⟨.outside, opened + 1, max deepest (opened + 1)⟩ := by
    rcases hopening with rfl | rfl <;> rfl
  have hclose : ∀ d, closing.foldl BracketScan.step ⟨.outside, opened + 1, d⟩ =
      ⟨.outside, opened, d⟩ := by
    intro d
    rcases hclosing with rfl | rfl <;> rfl
  rw [List.foldl_append, hopen, List.foldl_append, ht _ _ (by omega), hclose]
  congr 1
  omega

/-- Whether a code point is no bracket and no quote. -/
def isPlain (c : CodePoint) : Bool := !(text "\"[]\x7b\x7d").contains c

theorem ne_of_isPlain {c d : CodePoint} (hc : isPlain c = true) (hd : isPlain d = false) : c ≠ d := by
  rintro rfl
  rw [hc] at hd
  cases hd

theorem isPlain_of_isDigit {c : CodePoint} (h : c.isDigit = true) : isPlain c = true := by
  have hall : (text "\"[]\x7b\x7d").all (fun c => !c.isDigit) = true := by decide
  simp only [isPlain, Bool.not_eq_true', List.contains_eq_mem, decide_eq_false_iff_not]
  intro hmem
  simpa [h] using List.all_eq_true.1 hall c hmem

theorem isPlain_of_isJsonBlank {c : CodePoint} (h : isJsonBlank c = true) : isPlain c = true := by
  simp only [isJsonBlank, Bool.or_eq_true, decide_eq_true_eq] at h
  rcases h with ((rfl | rfl) | rfl) | rfl <;> decide

/-- A text without brackets and quotes opens none. -/
theorem nests_of_isPlain (h : t.all isPlain = true) : t.Nests 0 := by
  intro opened deepest hle
  rw [Nat.add_zero, Nat.max_eq_left hle]
  induction t with
  | nil => rfl
  | cons c t ih =>
      obtain ⟨hc, ht⟩ := Bool.and_eq_true_iff.1 h
      have hne : ∀ d, isPlain d = false → c ≠ d := fun d hd => ne_of_isPlain hc hd
      have hstep : BracketScan.step ⟨.outside, opened, deepest⟩ c = ⟨.outside, opened, deepest⟩ := by
        simp only [BracketScan.step, hne '"' (by decide), hne '[' (by decide), hne ']' (by decide),
          hne '\x7b' (by decide), hne '\x7d' (by decide), or_self, if_false]
      rw [List.foldl_cons, hstep]
      exact ih ht

theorem IsBlank.nests (h : t.IsBlank) : t.Nests 0 :=
  nests_of_isPlain (List.all_eq_true.2 fun c hc => isPlain_of_isJsonBlank (h c hc))

/-- Blanks before what brackets are around do not count. -/
theorem Nests.bracketed_after {blanks : Text} (ht : t.Nests n) (hblanks : blanks.IsBlank)
    {opening closing : Text} (hopening : opening = text "[" ∨ opening = text "\x7b")
    (hclosing : closing = text "]" ∨ closing = text "\x7d") :
    Nests (opening ++ (blanks ++ (t ++ closing))) (n + 1) := by
  have h := (hblanks.nests.zero_append ht).bracketed hopening hclosing
  rwa [List.append_assoc] at h

/-- Of two texts with a comma between them the deeper one counts. -/
theorem Nests.separated {after before : Text} (hs : s.Nests m) (hafter : after.IsBlank)
    (hbefore : before.IsBlank) (ht : t.Nests n) :
    (s ++ (after ++ (text "," ++ (before ++ t)))).Nests (max m n) := by
  have hcomma : (text ",").Nests 0 := nests_of_isPlain (by decide)
  exact hs.append (hafter.nests.zero_append (hcomma.zero_append (hbefore.nests.zero_append ht)))

theorem IsDigits.all_isPlain (h : t.IsDigits) : t.all isPlain = true :=
  List.all_eq_true.2 fun c hc => isPlain_of_isDigit (h.2 c hc)

end Text

/-- A numeral has neither brackets nor quotes. -/
theorem Numeral.Spells.all_isPlain {n : Numeral} {t : Text} (h : n.Spells t) :
    t.all Text.isPlain = true := by
  obtain ⟨hwhole, hfraction, hexponent⟩ := h
  rename_i negative whole f fraction e exponent
  have hw : whole.all Text.isPlain = true := by
    cases hwhole with
    | zero => decide
    | positive nonzero digits => exact digits.all_isPlain
  have hf : f.all Text.isPlain = true := by
    cases hfraction with
    | none => rfl
    | digits digits => exact digits.all_isPlain
  have he : e.all Text.isPlain = true := by
    cases hexponent with
    | none => rfl
    | unsigned isMark digits | plus isMark digits | minus isMark digits =>
        rcases isMark with rfl | rfl <;> exact digits.all_isPlain
  have hparts : (whole ++ f ++ e).all Text.isPlain = true := by
    rw [List.all_append, List.all_append, hw, hf, he]
    rfl
  cases negative with
  | false => exact hparts
  | true => exact hparts

/-- The second rules allow what the first ones do, containers around a value aside. -/
structure ReadRules.Within (rules rules' : ReadRules) : Prop where
  constants : rules.constants = true → rules'.constants = true
  digits : rules.digitLimit ≤ rules'.digitLimit

namespace Json

variable {rules rules' : ReadRules} {t body key s : Text} {v : Json}

theorem SpellsScalar.within (h : SpellsScalar rules t v) (hrules : rules.Within rules') :
    SpellsScalar rules' t v := by
  cases h with
  | literal word => exact .literal word
  | constant allowed word => exact .constant (hrules.constants allowed) word
  | number spells bound =>
      exact .number spells fun hwhole => Nat.le_trans (bound hwhole) hrules.digits

theorem SpellsScalar.nests (h : SpellsScalar rules t v) : t.Nests 0 := by
  refine Text.nests_of_isPlain ?_
  cases h with
  | literal word =>
      rcases mem_literals_iff.1 word with ⟨rfl, -⟩ | ⟨rfl, -⟩ | ⟨rfl, -⟩ <;> decide
  | constant allowed word =>
      rcases mem_constants_iff.1 word with ⟨rfl, -⟩ | ⟨rfl, -⟩ | ⟨rfl, -⟩ <;> decide
  | number spells bound => exact spells.all_isPlain

open Text (BracketScan)

/-- A digit of an escape is neither a quote nor a backslash. -/
theorem ne_of_unit? {a b c d u e : CodePoint} (h : unit? a b c d = some u)
    (he : e.hexValue? = none) : a ≠ e ∧ b ≠ e ∧ c ≠ e ∧ d ≠ e := by
  refine ⟨?_, ?_, ?_, ?_⟩ <;> rintro rfl <;> simp [unit?, he] at h

/-- A part of a string leaves a scan in the string. -/
theorem SpellsPart.foldl_step {p : StringPart} (h : SpellsPart t p) (opened deepest : Nat) :
    t.foldl BracketScan.step ⟨.inString, opened, deepest⟩ = ⟨.inString, opened, deepest⟩ := by
  cases h with
  | plain noQuote noBackslash noControl =>
      simp only [List.foldl_cons, List.foldl_nil, BracketScan.step, noQuote, noBackslash, if_false]
  | short escape => rfl
  | unicode escape =>
      obtain ⟨hq₁, hq₂, hq₃, hq₄⟩ := ne_of_unit? escape (e := '"') (by decide)
      obtain ⟨hb₁, hb₂, hb₃, hb₄⟩ := ne_of_unit? escape (e := '\\') (by decide)
      -- the backslash and the letter are two steps, out of the string and back
      rename_i a b c d u
      show [a, b, c, d].foldl BracketScan.step ⟨.inString, opened, deepest⟩ = _
      simp only [List.foldl_cons, List.foldl_nil, BracketScan.step, hq₁, hq₂, hq₃, hq₄, hb₁, hb₂,
        hb₃, hb₄, if_false]

theorem SpellsParts.foldl_step {parts : List StringPart} (h : SpellsParts t parts)
    (opened deepest : Nat) :
    t.foldl BracketScan.step ⟨.inString, opened, deepest⟩ = ⟨.inString, opened, deepest⟩ := by
  induction h with
  | nil => rfl
  | cons first others ih => rw [List.foldl_append, first.foldl_step, ih]

/-- A string opens no brackets, whatever is inside. -/
theorem SpellsString.nests (h : SpellsString body s) :
    (text "\"" ++ (body ++ text "\"")).Nests 0 := by
  obtain ⟨parts, hparts, -⟩ := h
  intro opened deepest hle
  have hopen : (text "\"").foldl BracketScan.step ⟨.outside, opened, deepest⟩ =
      ⟨.inString, opened, deepest⟩ := rfl
  rw [List.foldl_append, hopen, List.foldl_append, hparts.foldl_step, Nat.add_zero,
    Nat.max_eq_left hle]
  rfl

theorem SpellsName.nests (h : SpellsName t key) : t.Nests 0 := by
  obtain ⟨spells, blankBefore, blankAfter⟩ := h
  have hcolon : (text ":").Nests 0 := Text.nests_of_isPlain (by decide)
  have hparts := spells.nests.append_zero
    (blankBefore.nests.append_zero (hcolon.append_zero blankAfter.nests))
  simpa only [List.append_assoc] using hparts

-- The indices of these relations are texts put together, so the induction is by equations.

mutual

/-- A text of the grammar opens no more brackets at once than containers are allowed. -/
theorem SpellsValue.exists_nests {rules : ReadRules} : ∀ {m : Nat} {t : Text} {v : Json},
    SpellsValue rules m t v → ∃ n ≤ m, t.Nests n
  | _, _, _, .scalar word => ⟨0, Nat.zero_le _, word.nests⟩
  | _, _, _, .string spells => ⟨0, Nat.zero_le _, spells.nests⟩
  | _, _, _, .emptyArray blank => ⟨1, by omega, blank.nests.bracketed (.inl rfl) (.inl rfl)⟩
  | _, _, _, .array blank inside => by
      obtain ⟨n, hle, hnests⟩ := inside.exists_nests
      exact ⟨n + 1, Nat.succ_le_succ hle, hnests.bracketed_after blank (.inl rfl) (.inl rfl)⟩
  | _, _, _, .emptyObject blank => ⟨1, by omega, blank.nests.bracketed (.inr rfl) (.inr rfl)⟩
  | _, _, _, .object blank inside _ => by
      obtain ⟨n, hle, hnests⟩ := inside.exists_nests
      exact ⟨n + 1, Nat.succ_le_succ hle, hnests.bracketed_after blank (.inr rfl) (.inr rfl)⟩

theorem SpellsItems.exists_nests {rules : ReadRules} : ∀ {m : Nat} {t : Text} {items : List Json},
    SpellsItems rules m t items → ∃ n ≤ m, t.Nests n
  | _, _, _, .last value blank => by
      obtain ⟨n, hle, hnests⟩ := value.exists_nests
      exact ⟨n, hle, hnests.append_zero blank.nests⟩
  | _, _, _, .more value blankAfter blankBefore inside => by
      obtain ⟨n, hle, hnests⟩ := value.exists_nests
      obtain ⟨n', hle', hnests'⟩ := inside.exists_nests
      exact ⟨max n n', Nat.max_le.2 ⟨hle, hle'⟩, hnests.separated blankAfter blankBefore hnests'⟩

theorem SpellsFields.exists_nests {rules : ReadRules} : ∀ {m : Nat} {t : Text}
    {fields : List (Text × Json)}, SpellsFields rules m t fields → ∃ n ≤ m, t.Nests n
  | _, _, _, .last spells value blank => by
      obtain ⟨n, hle, hnests⟩ := value.exists_nests
      exact ⟨n, hle, spells.nests.zero_append (hnests.append_zero blank.nests)⟩
  | _, _, _, .more spells value blankAfter blankBefore inside => by
      obtain ⟨n, hle, hnests⟩ := value.exists_nests
      obtain ⟨n', hle', hnests'⟩ := inside.exists_nests
      exact ⟨max n n', Nat.max_le.2 ⟨hle, hle'⟩,
        spells.nests.zero_append (hnests.separated blankAfter blankBefore hnests')⟩

end

mutual

/-- A text of the grammar needs leave for no more containers than its brackets open. -/
theorem SpellsValue.of_nesting_le {rules rules' : ReadRules} (hrules : rules.Within rules') :
    ∀ {m n : Nat} {t : Text} {v : Json}, SpellsValue rules m t v → t.nesting ≤ n →
      SpellsValue rules' n t v
  | _, _, _, _, .scalar word, _ => .scalar (word.within hrules)
  | _, _, _, _, .string spells, _ => .string spells
  | _, _, _, _, .emptyArray blank, hle => by
      rw [(blank.nests.bracketed (.inl rfl) (.inl rfl)).nesting_eq] at hle
      obtain ⟨n, rfl⟩ := Nat.exists_eq_add_of_le' hle
      exact .emptyArray blank
  | _, n, _, _, .array blank inside, hle => by
      obtain ⟨k, -, hnests⟩ := inside.exists_nests
      rw [(hnests.bracketed_after blank (.inl rfl) (.inl rfl)).nesting_eq,
        ← hnests.nesting_eq] at hle
      obtain ⟨n, rfl⟩ : ∃ j, n = j + 1 := ⟨n - 1, by omega⟩
      exact .array blank (inside.of_nesting_le hrules (Nat.le_of_succ_le_succ hle))
  | _, _, _, _, .emptyObject blank, hle => by
      rw [(blank.nests.bracketed (.inr rfl) (.inr rfl)).nesting_eq] at hle
      obtain ⟨n, rfl⟩ := Nat.exists_eq_add_of_le' hle
      exact .emptyObject blank
  | _, n, _, _, .object blank inside merges, hle => by
      obtain ⟨k, -, hnests⟩ := inside.exists_nests
      rw [(hnests.bracketed_after blank (.inr rfl) (.inr rfl)).nesting_eq,
        ← hnests.nesting_eq] at hle
      obtain ⟨n, rfl⟩ : ∃ j, n = j + 1 := ⟨n - 1, by omega⟩
      exact .object blank (inside.of_nesting_le hrules (Nat.le_of_succ_le_succ hle)) merges

theorem SpellsItems.of_nesting_le {rules rules' : ReadRules} (hrules : rules.Within rules') :
    ∀ {m n : Nat} {t : Text} {items : List Json}, SpellsItems rules m t items → t.nesting ≤ n →
      SpellsItems rules' n t items
  | _, _, _, _, .last value blank, hle => by
      obtain ⟨k, -, hnests⟩ := value.exists_nests
      rw [(hnests.append_zero blank.nests).nesting_eq, ← hnests.nesting_eq] at hle
      exact .last (value.of_nesting_le hrules hle) blank
  | _, _, _, _, .more value blankAfter blankBefore inside, hle => by
      obtain ⟨k, -, hnests⟩ := value.exists_nests
      obtain ⟨k', -, hnests'⟩ := inside.exists_nests
      rw [(hnests.separated blankAfter blankBefore hnests').nesting_eq, Nat.max_le,
        ← hnests.nesting_eq, ← hnests'.nesting_eq] at hle
      exact .more (value.of_nesting_le hrules hle.1) blankAfter blankBefore
        (inside.of_nesting_le hrules hle.2)

theorem SpellsFields.of_nesting_le {rules rules' : ReadRules} (hrules : rules.Within rules') :
    ∀ {m n : Nat} {t : Text} {fields : List (Text × Json)}, SpellsFields rules m t fields →
      t.nesting ≤ n → SpellsFields rules' n t fields
  | _, _, _, _, .last spells value blank, hle => by
      obtain ⟨k, -, hnests⟩ := value.exists_nests
      rw [(spells.nests.zero_append (hnests.append_zero blank.nests)).nesting_eq,
        ← hnests.nesting_eq] at hle
      exact .last spells (value.of_nesting_le hrules hle) blank
  | _, _, _, _, .more spells value blankAfter blankBefore inside, hle => by
      obtain ⟨k, -, hnests⟩ := value.exists_nests
      obtain ⟨k', -, hnests'⟩ := inside.exists_nests
      rw [(spells.nests.zero_append (hnests.separated blankAfter blankBefore hnests')).nesting_eq,
        Nat.max_le, ← hnests.nesting_eq, ← hnests'.nesting_eq] at hle
      exact .more spells (value.of_nesting_le hrules hle.1) blankAfter blankBefore
        (inside.of_nesting_le hrules hle.2)

end

end Json

end ShapedJson
