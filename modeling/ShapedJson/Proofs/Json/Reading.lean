import Mathlib.Data.List.DropRight
import ShapedJson.Proofs.Json.Grammar
import ShapedJson.Proofs.Results

/-!
# The reader and the grammar

The reader takes a value from the front of a text exactly when the text starts with one that the
grammar has.  Both directions go by the steps of the reader: each one is stated once, as what it
takes and what it leaves to the next.
-/

namespace ShapedJson

namespace Text

theorem isBlank_nil : IsBlank [] := by
  simp [IsBlank]

theorem skipBlanks_append {blanks : Text} (h : blanks.IsBlank) (t : Text) :
    skipBlanks (blanks ++ t) = skipBlanks t :=
  List.dropWhile_append_of_pos h

theorem skipBlanks_cons {c : CodePoint} (h : isJsonBlank c = false) (t : Text) :
    skipBlanks (c :: t) = c :: t := by
  simp [skipBlanks, h]

theorem exists_eq_append_skipBlanks (t : Text) :
    ∃ blanks : Text, blanks.IsBlank ∧ t = blanks ++ skipBlanks t :=
  ⟨t.takeWhile isJsonBlank, fun _ hc => List.mem_takeWhile_imp hc,
    List.takeWhile_append_dropWhile.symm⟩

theorem skipBlanks_skipBlanks (t : Text) : skipBlanks (skipBlanks t) = skipBlanks t :=
  List.dropWhile_idempotent _ t

theorem skipBlanks_eq_nil_iff {t : Text} : skipBlanks t = [] ↔ t.IsBlank := by
  simp [skipBlanks, IsBlank, List.dropWhile_eq_nil_iff]

end Text

namespace Json

variable {rules : ReadRules} {fuel nesting : Nat} {t rest : Text} {v : Json}

/-! ## Words and numbers -/

theorem readWord?_eq_none {words : List (Text × Json)}
    (h : ∀ w ∈ words, ∀ rest, t ≠ w.1 ++ rest) : readWord? words t = none := by
  simp only [readWord?, List.findSome?_eq_none_iff, Option.map_eq_none_iff]
  intro w hw
  cases hrest : Text.after? w.1 t with
  | none => rfl
  | some rest => exact absurd (Text.after?_eq_some_iff.1 hrest) (h w hw rest)

theorem readWord?_sound {words : List (Text × Json)} {name : Text}
    (h : readWord? words t = some (name, v, rest)) : (name, v) ∈ words ∧ t = name ++ rest := by
  obtain ⟨w, hw, hmap⟩ := List.exists_of_findSome?_eq_some h
  simp only [Option.map_eq_some_iff, Prod.mk.injEq] at hmap
  obtain ⟨tail, htail, rfl, rfl, rfl⟩ := hmap
  exact ⟨hw, Text.after?_eq_some_iff.1 htail⟩

theorem readScalar_sound (h : readScalar rules t = .ok (v, rest)) :
    ∃ s, t = s ++ rest ∧ SpellsScalar rules s v := by
  unfold readScalar at h
  split at h
  · rename_i name w after hword
    cases h
    obtain ⟨hmem, ht⟩ := readWord?_sound hword
    exact ⟨name, ht, .literal hmem⟩
  · split at h
    · rename_i name w after hword
      split at h
      · rename_i hallowed
        cases h
        obtain ⟨hmem, ht⟩ := readWord?_sound hword
        exact ⟨name, ht, .constant hallowed hmem⟩
      · cases h
    · unfold readNumber at h
      split at h
      · cases h
      · rename_i n after hscan
        split at h
        · cases h
        · rename_i hbound
          cases h
          obtain ⟨s, ht, hs⟩ := Numeral.scan?_sound hscan
          refine ⟨s, ht, .number hs fun hwhole => ?_⟩
          simpa [hwhole] using hbound

/-- A numeral starts like none of the words. -/
theorem readWord?_of_spells {n : Numeral} {s : Text} (h : n.Spells s) (rest : Text) :
    readWord? literals (s ++ rest) = none ∧ readWord? constants (s ++ rest) = none := by
  obtain ⟨d, tail, hd, hs⟩ := h.exists_eq_cons
  have hne : ∀ c : CodePoint, c.isDigit = false → c ≠ d :=
    fun c hc => (CodePoint.ne_of_isDigit hd hc).symm
  constructor
  · apply readWord?_eq_none
    intro w hw tail' heq
    simp only [literals, List.mem_cons, List.not_mem_nil, or_false] at hw
    rcases hs with rfl | rfl
    · rcases hw with rfl | rfl | rfl <;> exact hne _ (by decide) (List.cons.inj heq).1.symm
    · rcases hw with rfl | rfl | rfl <;> exact absurd (List.cons.inj heq).1 (by decide)
  · apply readWord?_eq_none
    intro w hw tail' heq
    simp only [constants, List.mem_cons, List.not_mem_nil, or_false] at hw
    rcases hs with rfl | rfl
    · rcases hw with rfl | rfl | rfl <;> exact hne _ (by decide) (List.cons.inj heq).1.symm
    · rcases hw with rfl | rfl | rfl
      · exact absurd (List.cons.inj heq).1 (by decide)
      · exact absurd (List.cons.inj heq).1 (by decide)
      · -- after the minus sign a letter stands in the word and a digit in the numeral
        have htail := (List.cons.inj heq).2
        exact hne _ (by decide) (List.cons.inj htail).1.symm

theorem readScalar_constant {name : Text} (hallowed : rules.constants = true)
    (hliteral : readWord? literals t = none)
    (hword : readWord? constants t = some (name, v, rest)) :
    readScalar rules t = .ok (v, rest) := by
  rw [readScalar, hliteral, hword]
  simp [hallowed]

theorem readScalar_complete {s : Text} (h : SpellsScalar rules s v) (hrest : rest.EndsNumeral) :
    readScalar rules (s ++ rest) = .ok (v, rest) := by
  cases h with
  | literal word =>
      rcases mem_literals_iff.1 word with ⟨rfl, rfl⟩ | ⟨rfl, rfl⟩ | ⟨rfl, rfl⟩ <;> rfl
  | constant allowed word =>
      rcases mem_constants_iff.1 word with ⟨rfl, rfl⟩ | ⟨rfl, rfl⟩ | ⟨rfl, rfl⟩ <;>
        exact readScalar_constant allowed rfl rfl
  | number spells bound =>
      rename_i n
      obtain ⟨hliterals, hconstants⟩ := readWord?_of_spells spells rest
      -- the reader counts digits after the scan, the grammar bounds them beforehand
      have hbound : ¬ (n.isWhole && decide (rules.digitLimit < n.whole.length)) = true := by
        intro hboth
        simp only [Bool.and_eq_true, decide_eq_true_eq] at hboth
        have := bound hboth.1
        omega
      rw [readScalar, hliterals, hconstants]
      show readNumber rules (s ++ rest) = _
      rw [readNumber, Numeral.scan?_complete spells hrest]
      simp only [if_neg hbound]

/-! ## Steps -/

/-- What follows an item or a field: the bracket that closes the container, or a comma and what
the next step takes. -/
def Continues {α : Type} (close : CodePoint) (next : Text → Except Fault (List α × Text))
    (after rest : Text) (more : List α) : Prop :=
  (Text.skipBlanks after = close :: rest ∧ more = []) ∨
    ∃ tail, Text.skipBlanks after = (',' : CodePoint) :: tail ∧
      next (Text.skipBlanks tail) = .ok (more, rest)

theorem continues_iff {α : Type} {close : CodePoint} (hclose : close ≠ ',')
    {next : Text → Except Fault (List α × Text)} {a : α} {after : Text} {all : List α}
    {ended : Fault} {other : CodePoint → Text → Fault} :
    (match Text.skipBlanks after with
      | [] => Except.error ended
      | d :: tail =>
        if d = close then .ok ([a], tail)
        else if d = ',' then
          (next (Text.skipBlanks tail)).map fun (p : List α × Text) => (a :: p.1, p.2)
        else .error (other d tail)) = .ok (all, rest) ↔
      ∃ more, all = a :: more ∧ Continues close next after rest more := by
  unfold Continues
  cases Text.skipBlanks after with
  | nil => simp
  | cons d tail =>
      by_cases hd : d = close
      · subst hd
        simp only [if_true]
        constructor
        · intro h
          cases h
          exact ⟨[], rfl, .inl ⟨rfl, rfl⟩⟩
        · rintro ⟨more, rfl, ⟨heq, rfl⟩ | ⟨_, heq, -⟩⟩
          · rw [(List.cons.inj heq).2]
          · -- a bracket is no comma
            exact absurd (List.cons.inj heq).1 hclose
      · by_cases hcomma : d = ','
        · subst hcomma
          simp only [if_neg hd, if_true, Results.map_eq_ok_iff]
          constructor
          · rintro ⟨⟨more, after⟩, hnext, heq⟩
            cases heq
            exact ⟨more, rfl, .inr ⟨tail, rfl, hnext⟩⟩
          · rintro ⟨more, rfl, ⟨heq, -⟩ | ⟨_, heq, hnext⟩⟩
            · exact absurd (List.cons.inj heq).1 hd
            · rw [← (List.cons.inj heq).2] at hnext
              exact ⟨_, hnext, rfl⟩
        · simp [hd, hcomma]

/-- One step of the reader at an item. -/
theorem readItems_eq_ok_iff {items : List Json} :
    readItems rules (fuel + 1) nesting t = .ok (items, rest) ↔
      ∃ v after more, readValue rules fuel nesting t = .ok (v, after) ∧ items = v :: more ∧
        Continues ']' (readItems rules fuel nesting) after rest more := by
  rw [readItems, Results.bind_eq_ok_iff]
  constructor
  · rintro ⟨⟨v, after⟩, hv, h⟩
    obtain ⟨more, hitems, hmore⟩ := (continues_iff (by decide)).1 h
    exact ⟨v, after, more, hv, hitems, hmore⟩
  · rintro ⟨v, after, more, hv, hitems, hmore⟩
    exact ⟨(v, after), hv, (continues_iff (by decide)).2 ⟨more, hitems, hmore⟩⟩

/-- A string and a colon after it are a name of the grammar. -/
theorem spellsName_of_reads {key afterKey afterColon : Text}
    (hkey : readString (('"' : CodePoint) :: t) t = .ok (key, afterKey))
    (hcolon : Text.skipBlanks afterKey = (':' : CodePoint) :: afterColon) :
    ∃ name, ('"' : CodePoint) :: t = name ++ Text.skipBlanks afterColon ∧ SpellsName name key := by
  obtain ⟨body, rfl, hbody⟩ := readString_eq_ok_iff.1 hkey
  obtain ⟨before, hbefore, hafterKey⟩ := Text.exists_eq_append_skipBlanks afterKey
  obtain ⟨blanks, hblanks, hafterColon⟩ := Text.exists_eq_append_skipBlanks afterColon
  refine ⟨_, ?_, .quoted hbody hbefore hblanks⟩
  rw [hcolon] at hafterKey
  rw [hafterKey]
  simp only [List.append_assoc]
  rw [← hafterColon]
  rfl

/-- A name of the grammar is read as a string, with a colon after it. -/
theorem reads_of_spellsName {name key tail : Text} (h : SpellsName name key)
    (htail : Text.skipBlanks tail = tail) :
    ∃ t afterKey afterColon, name ++ tail = ('"' : CodePoint) :: t ∧
      readString (('"' : CodePoint) :: t) t = .ok (key, afterKey) ∧
      Text.skipBlanks afterKey = (':' : CodePoint) :: afterColon ∧
      Text.skipBlanks afterColon = tail := by
  obtain ⟨hbody, hbefore, hblanks⟩ := h
  rename_i body before blanks
  refine ⟨body ++ (text "\"" ++ (before ++ (text ":" ++ (blanks ++ tail)))),
    before ++ (text ":" ++ (blanks ++ tail)), blanks ++ tail, ?_, ?_, ?_, ?_⟩
  · simp [text]
  · exact readString_eq_ok_iff.2 ⟨body, rfl, hbody⟩
  · rw [Text.skipBlanks_append hbefore]
    exact Text.skipBlanks_cons (by decide) _
  · rw [Text.skipBlanks_append hblanks, htail]

/-- One step of the reader at a field. -/
theorem readFields_eq_ok_iff {fields : List (Text × Json)} :
    readFields rules (fuel + 1) nesting t = .ok (fields, rest) ↔
      ∃ name key tail v after more, t = name ++ tail ∧ SpellsName name key ∧
        Text.skipBlanks tail = tail ∧ readValue rules fuel nesting tail = .ok (v, after) ∧
        fields = (key, v) :: more ∧
        Continues '\x7d' (readFields rules fuel nesting) after rest more := by
  constructor
  · -- the reader got through all of its checks: a quote, a string, a colon and a value
    intro h
    cases t with
    | nil => cases h
    | cons c t =>
        rw [readFields] at h
        split at h
        · rename_i hc
          subst hc
          obtain ⟨⟨key, afterKey⟩, hkey, h⟩ := Results.bind_eq_ok_iff.1 h
          change (match Text.skipBlanks afterKey with
            | [] => _
            | d :: rest => _) = _ at h
          split at h
          · cases h
          · rename_i d afterColon hcolon
            split at h
            · rename_i hd
              subst hd
              obtain ⟨⟨v, after⟩, hv, h⟩ := Results.bind_eq_ok_iff.1 h
              obtain ⟨more, rfl, hmore⟩ := (continues_iff (by decide)).1 h
              obtain ⟨name, hname, hspells⟩ := spellsName_of_reads hkey hcolon
              exact ⟨name, key, _, v, after, more, hname, hspells, Text.skipBlanks_skipBlanks _, hv,
                rfl, hmore⟩
            · cases h
        · cases h
  · rintro ⟨name, key, tail, v, after, more, rfl, hname, htail, hv, rfl, hmore⟩
    obtain ⟨t, afterKey, afterColon, ht, hkey, hcolon, hvalue⟩ := reads_of_spellsName hname htail
    rw [ht, readFields, if_pos rfl, hkey]
    simp only [bind, Except.bind, hcolon, if_true, hvalue, hv]
    exact (continues_iff (by decide)).2 ⟨more, rfl, hmore⟩

/-- What stands in a container: nothing but blanks, or what the next step takes. -/
def Contains {α : Type} (close : CodePoint) (next : Text → Except Fault (List α × Text))
    (t rest : Text) (inside : List α) : Prop :=
  (Text.skipBlanks t = close :: rest ∧ inside = []) ∨
    (∀ tail, Text.skipBlanks t ≠ close :: tail) ∧ Text.skipBlanks t ≠ [] ∧
      next (Text.skipBlanks t) = .ok (inside, rest)

theorem contains_iff {α : Type} (make : List α → Json) {close : CodePoint}
    {next : Text → Except Fault (List α × Text)} {ended : Fault} {t : Text} :
    (match Text.skipBlanks t with
      | [] => Except.error ended
      | d :: tail =>
        if d = close then .ok (make [], tail)
        else (next (d :: tail)).map fun (p : List α × Text) => (make p.1, p.2)) = .ok (v, rest) ↔
      ∃ inside, v = make inside ∧ Contains close next t rest inside := by
  unfold Contains
  cases Text.skipBlanks t with
  | nil => simp
  | cons d tail =>
      by_cases hd : d = close
      · subst hd
        simp only [if_true]
        constructor
        · intro h
          cases h
          exact ⟨[], rfl, .inl ⟨rfl, rfl⟩⟩
        · rintro ⟨inside, rfl, ⟨heq, rfl⟩ | ⟨hne, -, -⟩⟩
          · rw [(List.cons.inj heq).2]
          · exact absurd rfl (hne tail)
      · simp only [if_neg hd, Results.map_eq_ok_iff]
        constructor
        · rintro ⟨⟨inside, after⟩, hnext, heq⟩
          cases heq
          exact ⟨inside, rfl, .inr ⟨fun other heq => hd (List.cons.inj heq).1, by simp, hnext⟩⟩
        · rintro ⟨inside, rfl, ⟨heq, -⟩ | ⟨-, -, hnext⟩⟩
          · exact absurd (List.cons.inj heq).1 hd
          · exact ⟨_, hnext, rfl⟩

/-- One step of the reader at a value. -/
inductive ReadsValue (rules : ReadRules) (fuel : Nat) : Nat → Text → Json → Text → Prop
  | string {nesting : Nat} {t s rest : Text}
      (reads : readString (('"' : CodePoint) :: t) t = .ok (s, rest)) :
      ReadsValue rules fuel nesting (('"' : CodePoint) :: t) (.string s) rest
  | object {nesting : Nat} {t rest : Text} {fields : List (Text × Json)}
      (contains : Contains '\x7d' (readFields rules fuel nesting) t rest fields) :
      ReadsValue rules fuel (nesting + 1) (('\x7b' : CodePoint) :: t)
        (.object (Fields.distinct fields)) rest
  | array {nesting : Nat} {t rest : Text} {items : List Json}
      (contains : Contains ']' (readItems rules fuel nesting) t rest items) :
      ReadsValue rules fuel (nesting + 1) (('[' : CodePoint) :: t) (.array items) rest
  | scalar {nesting : Nat} {c : CodePoint} {t rest : Text} {v : Json} (noQuote : c ≠ '"')
      (noBrace : c ≠ '\x7b') (noBracket : c ≠ '[')
      (reads : readScalar rules (c :: t) = .ok (v, rest)) :
      ReadsValue rules fuel nesting (c :: t) v rest

theorem readValue_eq_ok_iff :
    readValue rules (fuel + 1) nesting t = .ok (v, rest) ↔
      ReadsValue rules fuel nesting t v rest := by
  constructor
  · -- the first code point says which of the four cases it is
    intro h
    cases t with
    | nil => cases h
    | cons c t =>
        rw [readValue.eq_def] at h
        simp only at h
        split at h
        · rename_i hc
          subst hc
          obtain ⟨⟨s, after⟩, hs, heq⟩ := Results.map_eq_ok_iff.1 h
          cases heq
          exact .string hs
        · rename_i hquote
          split at h
          · rename_i hc
            subst hc
            split at h
            · cases h
            · rename_i nesting
              obtain ⟨fields, rfl, hfields⟩ :=
                (contains_iff fun fields => .object (Fields.distinct fields)).1 h
              exact .object hfields
          · rename_i hbrace
            split at h
            · rename_i hc
              subst hc
              split at h
              · cases h
              · obtain ⟨items, rfl, hitems⟩ := (contains_iff Json.array).1 h
                exact .array hitems
            · rename_i hbracket
              exact .scalar hquote hbrace hbracket h
  · intro h
    cases h with
    | string reads =>
        rw [readValue.eq_def]
        simp only [if_true, reads]
        rfl
    | object contains =>
        have hquote : ¬ ('\x7b' : CodePoint) = '"' := by decide
        rw [readValue.eq_def]
        simp only [if_neg hquote, if_true]
        exact (contains_iff fun fields => .object (Fields.distinct fields)).2
          ⟨_, rfl, contains⟩
    | array contains =>
        have hquote : ¬ ('[' : CodePoint) = '"' := by decide
        have hbrace : ¬ ('[' : CodePoint) = '\x7b' := by decide
        rw [readValue.eq_def]
        simp only [if_neg hquote, if_neg hbrace, if_true]
        exact (contains_iff Json.array).2 ⟨_, rfl, contains⟩
    | scalar noQuote noBrace noBracket reads =>
        rw [readValue.eq_def]
        simp only [if_neg noQuote, if_neg noBrace, if_neg noBracket]
        exact reads

/-! ## Soundness -/

theorem exists_blank_of_skipBlanks_eq {after tail : Text} {c : CodePoint}
    (h : Text.skipBlanks after = c :: tail) :
    ∃ blanks : Text, blanks.IsBlank ∧ after = blanks ++ c :: tail := by
  obtain ⟨blanks, hblanks, heq⟩ := Text.exists_eq_append_skipBlanks after
  rw [h] at heq
  exact ⟨blanks, hblanks, heq⟩

section

variable {α : Type} {close : CodePoint} {next : Text → Except Fault (List α × Text)}
  {after : Text} {more inside : List α} {q : Text → List α → Prop}

/-- What follows an item or a field is the end, or a comma and what the next step is sound for. -/
theorem Continues.sound (h : Continues close next after rest more)
    (hnext : ∀ t more rest, next t = .ok (more, rest) → ∃ s, t = s ++ close :: rest ∧ q s more) :
    (∃ blanks : Text, blanks.IsBlank ∧ after = blanks ++ close :: rest ∧ more = []) ∨
      ∃ blanks before others : Text, blanks.IsBlank ∧ before.IsBlank ∧ q others more ∧
        after = blanks ++ (',' : CodePoint) :: (before ++ (others ++ close :: rest)) := by
  rcases h with ⟨hclose, rfl⟩ | ⟨tail, hcomma, hnext'⟩
  · obtain ⟨blanks, hblanks, rfl⟩ := exists_blank_of_skipBlanks_eq hclose
    exact .inl ⟨blanks, hblanks, rfl, rfl⟩
  · obtain ⟨blanks, hblanks, rfl⟩ := exists_blank_of_skipBlanks_eq hcomma
    obtain ⟨before, hbefore, hbeforeEq⟩ := Text.exists_eq_append_skipBlanks tail
    obtain ⟨others, hothers, hq⟩ := hnext _ _ _ hnext'
    rw [hothers] at hbeforeEq
    exact .inr ⟨blanks, before, others, hblanks, hbefore, hq, by rw [hbeforeEq]⟩

/-- What stands in a container is nothing, or what the next step is sound for. -/
theorem Contains.sound (h : Contains close next t rest inside)
    (hnext : ∀ t inside rest, next t = .ok (inside, rest) →
      ∃ s, t = s ++ close :: rest ∧ q s inside) :
    (∃ blanks : Text, blanks.IsBlank ∧ t = blanks ++ close :: rest ∧ inside = []) ∨
      ∃ blanks others : Text, blanks.IsBlank ∧ q others inside ∧
        t = blanks ++ (others ++ close :: rest) := by
  rcases h with ⟨hclose, rfl⟩ | ⟨-, -, hnext'⟩
  · obtain ⟨blanks, hblanks, rfl⟩ := exists_blank_of_skipBlanks_eq hclose
    exact .inl ⟨blanks, hblanks, rfl, rfl⟩
  · obtain ⟨blanks, hblanks, heq⟩ := Text.exists_eq_append_skipBlanks t
    obtain ⟨others, hothers, hq⟩ := hnext _ _ _ hnext'
    rw [hothers] at heq
    exact .inr ⟨blanks, others, hblanks, hq, heq⟩

end

/-- What the reader takes in so many steps is in the grammar: values, items up to the closing
bracket, and fields up to the closing brace. -/
theorem reads_sound (rules : ReadRules) (fuel : Nat) :
    (∀ nesting t v rest, readValue rules fuel nesting t = .ok (v, rest) →
        ∃ s, t = s ++ rest ∧ SpellsValue rules nesting s v) ∧
      (∀ nesting t items rest, readItems rules fuel nesting t = .ok (items, rest) →
        ∃ s, t = s ++ (']' : CodePoint) :: rest ∧ SpellsItems rules nesting s items) ∧
      (∀ nesting t fields rest, readFields rules fuel nesting t = .ok (fields, rest) →
        ∃ s, t = s ++ ('\x7d' : CodePoint) :: rest ∧ SpellsFields rules nesting s fields) := by
  induction fuel with
  | zero => exact ⟨by rintro _ _ _ _ ⟨⟩, by rintro _ _ _ _ ⟨⟩, by rintro _ _ _ _ ⟨⟩⟩
  | succ fuel ih =>
      -- a step takes what it takes itself, and leaves the rest to steps with less fuel
      obtain ⟨ihValue, ihItems, ihFields⟩ := ih
      refine ⟨?_, ?_, ?_⟩
      · intro nesting t v rest h
        cases readValue_eq_ok_iff.1 h with
        | string reads =>
            obtain ⟨body, rfl, hbody⟩ := readString_eq_ok_iff.1 reads
            exact ⟨_, by simp [text], .string hbody⟩
        | scalar _ _ _ reads =>
            obtain ⟨s, hs, hscalar⟩ := readScalar_sound reads
            exact ⟨s, hs, .scalar hscalar⟩
        | @array nesting t _ items contains =>
            rcases contains.sound (ihItems nesting) with
              ⟨blanks, hblanks, rfl, rfl⟩ | ⟨blanks, others, hblanks, hitems, rfl⟩
            · exact ⟨_, by simp [text], .emptyArray hblanks⟩
            · exact ⟨_, by simp [text], .array hblanks hitems⟩
        | @object nesting t _ fields contains =>
            rcases contains.sound (ihFields nesting) with
              ⟨blanks, hblanks, rfl, rfl⟩ | ⟨blanks, others, hblanks, hfields, rfl⟩
            · exact ⟨_, by simp [text], .emptyObject hblanks⟩
            · exact ⟨_, by simp [text], .object hblanks hfields (Fields.merges_distinct fields)⟩
      · intro nesting t items rest h
        obtain ⟨v, after, more, hv, rfl, hmore⟩ := readItems_eq_ok_iff.1 h
        obtain ⟨s, rfl, hs⟩ := ihValue _ _ _ _ hv
        rcases hmore.sound (ihItems nesting) with
          ⟨blanks, hblanks, rfl, rfl⟩ | ⟨blanks, before, others, hblanks, hbefore, hitems, rfl⟩
        · exact ⟨_, by simp, .last hs hblanks⟩
        · exact ⟨_, by simp [text], .more hs hblanks hbefore hitems⟩
      · intro nesting t fields rest h
        obtain ⟨name, key, tail, v, after, more, rfl, hname, -, hv, rfl, hmore⟩ :=
          readFields_eq_ok_iff.1 h
        obtain ⟨s, rfl, hs⟩ := ihValue _ _ _ _ hv
        rcases hmore.sound (ihFields nesting) with
          ⟨blanks, hblanks, rfl, rfl⟩ | ⟨blanks, before, others, hblanks, hbefore, hfields, rfl⟩
        · exact ⟨_, by simp, .last hname hs hblanks⟩
        · exact ⟨_, by simp [text], .more hname hs hblanks hbefore hfields⟩

/-! ## Completeness -/

/-- No numeral goes on with blanks. -/
theorem endsNumeral_append {blanks : Text} (h : blanks.IsBlank) (ht : t.EndsNumeral) :
    Text.EndsNumeral (blanks ++ t) := by
  cases blanks with
  | nil => exact ht
  | cons c blanks =>
      have hc := h c (by simp)
      simp only [Text.isJsonBlank, Bool.or_eq_true, decide_eq_true_eq] at hc
      rw [List.cons_append, Text.endsNumeral_cons]
      rcases hc with ((rfl | rfl) | rfl) | rfl <;> decide

section

variable {α : Type} {close : CodePoint} {next : Text → Except Fault (List α × Text)}
  {blanks before tail : Text} {c : CodePoint} {inside : List α}

theorem skipBlanks_append_cons (h : blanks.IsBlank) (hc : Text.isJsonBlank c = false) :
    Text.skipBlanks (blanks ++ c :: tail) = c :: tail := by
  rw [Text.skipBlanks_append h, Text.skipBlanks_cons hc]

theorem contains_of_blank (h : blanks.IsBlank) (hclose : Text.isJsonBlank close = false) :
    Contains close next (blanks ++ close :: rest) rest [] :=
  .inl ⟨skipBlanks_append_cons h hclose, rfl⟩

theorem contains_of_next (h : blanks.IsBlank) (hc : Text.isJsonBlank c = false) (hne : c ≠ close)
    (hnext : next (c :: tail) = .ok (inside, rest)) :
    Contains close next (blanks ++ c :: tail) rest inside := by
  have hskip : Text.skipBlanks (blanks ++ c :: tail) = c :: tail := skipBlanks_append_cons h hc
  refine .inr ⟨fun other heq => ?_, ?_, ?_⟩
  · rw [hskip] at heq
    exact hne (List.cons.inj heq).1
  · rw [hskip]
    exact List.cons_ne_nil _ _
  · rw [hskip]
    exact hnext

theorem continues_of_close (h : blanks.IsBlank) (hclose : Text.isJsonBlank close = false) :
    Continues close next (blanks ++ close :: rest) rest [] :=
  .inl ⟨skipBlanks_append_cons h hclose, rfl⟩

theorem continues_of_next (h : blanks.IsBlank) (hbefore : before.IsBlank)
    (hc : Text.isJsonBlank c = false) (hnext : next (c :: tail) = .ok (inside, rest)) :
    Continues close next (blanks ++ (text "," ++ (before ++ c :: tail))) rest inside := by
  refine .inr ⟨before ++ c :: tail, skipBlanks_append_cons h (by decide), ?_⟩
  rw [skipBlanks_append_cons hbefore hc]
  exact hnext

end

/-- Steps enough for a text that is not empty are at least one. -/
theorem exists_fuel_eq_succ {s tail : Text} {c : CodePoint} (hs : s = c :: tail)
    (hfuel : 2 * s.length ≤ fuel + 1) : ∃ n, fuel = n + 1 := by
  rw [hs, List.length_cons] at hfuel
  exact ⟨fuel - 1, by omega⟩

mutual

/-- A value of the grammar is read when it is a container, or no numeral could go on after it, and
there are enough steps for its text. -/
theorem readValue_complete {rules : ReadRules} {nesting : Nat} (fuel : Nat) {s : Text}
    (rest : Text) {v : Json} (h : SpellsValue rules nesting s v)
    (hfuel : 2 * s.length ≤ fuel + 1) (hrest : ¬ v.IsContainer → rest.EndsNumeral) :
    readValue rules fuel nesting (s ++ rest) = .ok (v, rest) := by
  -- a value takes no more than two steps for each code point, less one
  obtain ⟨_, _, hs, -⟩ := h.exists_eq_cons
  obtain ⟨fuel, rfl⟩ := exists_fuel_eq_succ hs hfuel
  clear hs
  rw [readValue_eq_ok_iff]
  cases h with
  | scalar word =>
      obtain ⟨c, tail, rfl, hc⟩ := word.exists_eq_cons
      obtain ⟨-, hquote, hbrace, hbracket⟩ := hc.opensScalar
      exact .scalar hquote hbrace hbracket (readScalar_complete word
        (hrest word.not_isContainer))
  | string spells =>
      rw [List.append_assoc, List.append_assoc]
      exact .string (readString_eq_ok_iff.2 ⟨_, rfl, spells⟩)
  | @emptyArray _ inside blank =>
      rw [List.append_assoc, List.append_assoc]
      exact .array (t := inside ++ (text "]" ++ rest)) (contains_of_blank blank (by decide))
  | @array _ before t items blank inside =>
      obtain ⟨c, tail, ht, hc⟩ := inside.exists_eq_cons
      have hitems := readItems_complete fuel rest inside (by
        simp only [List.length_append] at hfuel
        have : (text "[").length = 1 := rfl
        omega)
      simp only [List.append_assoc]
      refine .array (t := before ++ (t ++ (text "]" ++ rest))) ?_
      rw [ht] at hitems ⊢
      exact contains_of_next blank hc.1 hc.2.1 hitems
  | @emptyObject nesting inside blank =>
      rw [List.append_assoc, List.append_assoc]
      have hfields : Contains '\x7d' (readFields rules fuel nesting)
          (inside ++ (text "\x7d" ++ rest)) rest [] :=
        contains_of_blank blank (by decide)
      have hobject := ReadsValue.object hfields
      exact hobject
  | @object _ before t given fields blank inside merges =>
      obtain rfl := merges.eq_distinct
      obtain ⟨tail, ht⟩ := inside.exists_eq_cons
      have hfields := readFields_complete fuel rest inside (by
        simp only [List.length_append] at hfuel
        have : (text "\x7b").length = 1 := rfl
        omega)
      simp only [List.append_assoc]
      refine .object (t := before ++ (t ++ (text "\x7d" ++ rest))) ?_
      rw [ht] at hfields ⊢
      exact contains_of_next blank (by decide) (by decide) hfields

theorem readItems_complete {rules : ReadRules} {nesting : Nat} (fuel : Nat) {s : Text}
    (rest : Text) {items : List Json} (h : SpellsItems rules nesting s items)
    (hfuel : 2 * s.length ≤ fuel) :
    readItems rules fuel nesting (s ++ (text "]" ++ rest)) = .ok (items, rest) := by
  obtain ⟨_, _, hs, -⟩ := h.exists_eq_cons
  obtain ⟨fuel, rfl⟩ := exists_fuel_eq_succ hs (Nat.le_succ_of_le hfuel)
  clear hs
  rw [readItems_eq_ok_iff]
  cases h with
  | @last _ t after v value blank =>
      simp only [List.length_append] at hfuel
      have hv := readValue_complete fuel (after ++ (text "]" ++ rest)) value
        (by omega)
        fun _ => endsNumeral_append blank (Text.endsNumeral_cons.2 (by decide))
      rw [List.append_assoc]
      exact ⟨v, _, [], hv, rfl, continues_of_close blank (by decide)⟩
  | @more _ t after before others v vs value blankAfter blankBefore inside =>
      simp only [List.length_append] at hfuel
      have : (text ",").length = 1 := rfl
      have hv := readValue_complete fuel
        (after ++ (text "," ++ (before ++ (others ++ (text "]" ++ rest))))) value (by omega)
        fun _ => endsNumeral_append blankAfter (Text.endsNumeral_cons.2 (by decide))
      have hitems := readItems_complete fuel rest inside (by omega)
      obtain ⟨c, tail, hothers, hc⟩ := inside.exists_eq_cons
      simp only [List.append_assoc]
      refine ⟨v, _, vs, hv, rfl, ?_⟩
      -- the next item opens with no blank, so the blanks before it are the ones skipped
      rw [hothers] at hitems ⊢
      exact continues_of_next blankAfter blankBefore hc.1 hitems

theorem readFields_complete {rules : ReadRules} {nesting : Nat} (fuel : Nat) {s : Text}
    (rest : Text) {fields : List (Text × Json)} (h : SpellsFields rules nesting s fields)
    (hfuel : 2 * s.length ≤ fuel) :
    readFields rules fuel nesting (s ++ (text "\x7d" ++ rest)) = .ok (fields, rest) := by
  obtain ⟨_, hs⟩ := h.exists_eq_cons
  obtain ⟨fuel, rfl⟩ := exists_fuel_eq_succ hs (Nat.le_succ_of_le hfuel)
  clear hs
  rw [readFields_eq_ok_iff]
  cases h with
  | @last _ name key t after v spells value blank =>
      simp only [List.length_append] at hfuel
      have hv := readValue_complete fuel (after ++ (text "\x7d" ++ rest)) value
        (by omega)
        fun _ => endsNumeral_append blank (Text.endsNumeral_cons.2 (by decide))
      obtain ⟨c, tail, ht, hc⟩ := value.exists_eq_cons
      simp only [List.append_assoc]
      refine ⟨name, key, _, v, _, [], rfl, spells, ?_, hv, rfl,
        continues_of_close blank (by decide)⟩
      rw [ht]
      exact Text.skipBlanks_cons hc.1 _
  | @more _ name key t after before others v fs spells value blankAfter blankBefore inside =>
      simp only [List.length_append] at hfuel
      have : (text ",").length = 1 := rfl
      have hv := readValue_complete fuel
        (after ++ (text "," ++ (before ++ (others ++ (text "\x7d" ++ rest))))) value (by omega)
        fun _ => endsNumeral_append blankAfter (Text.endsNumeral_cons.2 (by decide))
      have hfields := readFields_complete fuel rest inside (by omega)
      obtain ⟨c, tail, ht, hc⟩ := value.exists_eq_cons
      obtain ⟨tail', hothers⟩ := inside.exists_eq_cons
      simp only [List.append_assoc]
      refine ⟨name, key, _, v, _, fs, rfl, spells, ?_, hv, rfl, ?_⟩
      · rw [ht]
        exact Text.skipBlanks_cons hc.1 _
      · rw [hothers] at hfields ⊢
        exact continues_of_next blankAfter blankBefore (by decide) hfields

end

/-- A text is read as a value exactly when it is a document of the grammar that denotes it. -/
theorem read_eq_ok_iff : read rules t = .ok v ↔ SpellsDocument rules t v := by
  constructor
  · intro h
    unfold read at h
    cases hread : readValue rules (2 * t.length + 2) rules.nestingLimit (Text.skipBlanks t) with
    | error fault =>
        rw [hread] at h
        cases h
    | ok q =>
        -- only blanks may be left after the value
        obtain ⟨w, after⟩ := q
        rw [hread] at h
        change (match Text.skipBlanks after with
          | [] => _
          | c :: rest => _) = _ at h
        split at h
        · rename_i hafter
          cases h
          obtain ⟨s, hs, hspells⟩ := (reads_sound _ _).1 _ _ _ _ hread
          obtain ⟨before, hbefore, ht⟩ := Text.exists_eq_append_skipBlanks t
          exact ⟨before, s, after, hbefore, Text.skipBlanks_eq_nil_iff.1 hafter, by rw [ht, hs],
            hspells⟩
        · cases h
  · rintro ⟨before, s, after, hbefore, hafter, rfl, hspells⟩
    obtain ⟨c, tail, hs, hc⟩ := hspells.exists_eq_cons
    have hends : Text.EndsNumeral after := by
      simpa using endsNumeral_append hafter Text.endsNumeral_nil
    have hskip : Text.skipBlanks (before ++ (s ++ after)) = s ++ after := by
      rw [hs]
      exact skipBlanks_append_cons hbefore hc.1
    have hread := readValue_complete (2 * (before ++ (s ++ after)).length + 2) after hspells
      (by simp only [List.length_append]; omega) fun _ => hends
    unfold read
    rw [hskip, hread]
    show (match Text.skipBlanks after with
      | [] => _
      | c :: rest => _) = _
    rw [Text.skipBlanks_eq_nil_iff.2 hafter]

end Json

end ShapedJson
