import ShapedJson.Json.Reader
import ShapedJson.Proofs.Results

/-!
# The grammar of strings

What stands between the quotes of a string: code points as they are and escapes.  The reader
takes exactly the texts of the grammar.
-/

namespace ShapedJson.Json

/-- The text is the part of a string as it is written. -/
inductive SpellsPart : Text → StringPart → Prop
  | plain {c : CodePoint} (noQuote : c ≠ '"') (noBackslash : c ≠ '\\')
      (noControl : ¬ c.val < 0x20) : SpellsPart [c] (.literal c)
  | short {e c : CodePoint} (escape : shortEscape? e = some c) : SpellsPart ['\\', e] (.literal c)
  | unicode {h₁ h₂ h₃ h₄ u : CodePoint} (escape : unit? h₁ h₂ h₃ h₄ = some u) :
      SpellsPart ['\\', 'u', h₁, h₂, h₃, h₄] (.unit u)

/-- The text is the parts one after another. -/
inductive SpellsParts : Text → List StringPart → Prop
  | nil : SpellsParts [] []
  | cons {s t : Text} {p : StringPart} {ps : List StringPart} (first : SpellsPart s p)
      (others : SpellsParts t ps) : SpellsParts (s ++ t) (p :: ps)

/-- The text is what the parts denote.  Two units next to each other that are the two halves of a
surrogate pair are one code point; a half without the other one stays as it is. -/
inductive Joins : List StringPart → Text → Prop
  | nil : Joins [] []
  | literal {c : CodePoint} {ps : List StringPart} {s : Text} (others : Joins ps s) :
      Joins (.literal c :: ps) (c :: s)
  | pair {high low c : CodePoint} {ps : List StringPart} {s : Text}
      (isHigh : high.isHighSurrogate = true) (isLow : low.isLowSurrogate = true)
      (value : c.val = 0x10000 + (high.val - 0xD800) * 0x400 + (low.val - 0xDC00))
      (others : Joins ps s) : Joins (.unit high :: .unit low :: ps) (c :: s)
  | single {c : CodePoint} {ps : List StringPart} {s : Text}
      (alone : c.isHighSurrogate = true → ∀ d qs, ps = .unit d :: qs → d.isLowSurrogate = false)
      (others : Joins ps s) : Joins (.unit c :: ps) (c :: s)

/-- The text between quotes denotes the string. -/
def SpellsString (body s : Text) : Prop := ∃ parts, SpellsParts body parts ∧ Joins parts s

variable {start t rest body : Text} {parts : List StringPart}

theorem joinParts_literal (c : CodePoint) (ps : List StringPart) :
    joinParts (.literal c :: ps) = c :: joinParts ps := by
  cases ps <;> rfl

theorem joinParts_pair {c d : CodePoint} (hc : c.isHighSurrogate = true)
    (hd : d.isLowSurrogate = true) (ps : List StringPart) :
    joinParts (.unit c :: .unit d :: ps) = .ofSurrogates c d :: joinParts ps := by
  simp [joinParts, hc, hd]

theorem joinParts_single {c : CodePoint} {ps : List StringPart}
    (h : c.isHighSurrogate = true → ∀ d qs, ps = .unit d :: qs → d.isLowSurrogate = false) :
    joinParts (.unit c :: ps) = c :: joinParts ps := by
  cases ps with
  | nil => rfl
  | cons p ps =>
      cases p with
      | literal d => rfl
      | unit d =>
          cases hc : c.isHighSurrogate with
          | false => simp [joinParts, hc]
          | true => simp [joinParts, hc, h hc d ps rfl]

/-- The code point of a pair is that of its two halves. -/
theorem val_ofSurrogates {c d : CodePoint} (hc : c.isHighSurrogate = true)
    (hd : d.isLowSurrogate = true) :
    (CodePoint.ofSurrogates c d).val = 0x10000 + (c.val - 0xD800) * 0x400 + (d.val - 0xDC00) := by
  simp only [CodePoint.isHighSurrogate, CodePoint.isLowSurrogate, Bool.and_eq_true,
    decide_eq_true_eq] at hc hd
  exact Nat.mod_eq_of_lt (by omega)

/-- Joining gives what the parts denote. -/
theorem joins_iff {ps : List StringPart} {s : Text} : Joins ps s ↔ joinParts ps = s := by
  constructor
  · intro h
    induction h with
    | nil => rfl
    | literal others ih => rw [joinParts_literal, ih]
    | pair isHigh isLow value others ih =>
        rw [joinParts_pair isHigh isLow, ih]
        exact congrArg (· :: _) (Fin.ext ((val_ofSurrogates isHigh isLow).trans value.symm))
    | single alone others ih => rw [joinParts_single alone, ih]
  · rintro rfl
    -- a pair takes two parts at once, so the induction is on the number of parts
    induction hn : ps.length using Nat.strongRecOn generalizing ps with
    | _ n ih =>
        subst hn
        cases ps with
        | nil => exact .nil
        | cons p ps =>
            have hrest : Joins ps (joinParts ps) := ih ps.length (Nat.lt_succ_self _) rfl
            cases p with
            | literal c =>
                rw [joinParts_literal]
                exact .literal hrest
            | unit c =>
                by_cases hpair : ∃ d qs, ps = .unit d :: qs ∧ c.isHighSurrogate = true ∧
                    d.isLowSurrogate = true
                · obtain ⟨d, qs, rfl, hc, hd⟩ := hpair
                  rw [joinParts_pair hc hd]
                  exact .pair hc hd (val_ofSurrogates hc hd)
                    (ih qs.length (Nat.lt_succ_of_lt (Nat.lt_succ_self _)) rfl)
                · have halone : c.isHighSurrogate = true → ∀ d qs, ps = .unit d :: qs →
                      d.isLowSurrogate = false :=
                    fun hc d qs hps => eq_false_of_ne_true fun hd => hpair ⟨d, qs, hps, hc, hd⟩
                  rw [joinParts_single halone]
                  exact .single halone hrest

theorem SpellsPart.ne_nil {s : Text} {p : StringPart} (h : SpellsPart s p) : s ≠ [] := by
  cases h <;> simp

theorem readParts_map_eq_ok {p : StringPart}
    (h : (readParts start t).map (fun q => (p :: q.1, q.2)) = .ok (parts, rest)) :
    ∃ ps, parts = p :: ps ∧ readParts start t = .ok (ps, rest) := by
  obtain ⟨⟨ps, after⟩, hread, heq⟩ := Results.map_eq_ok_iff.1 h
  cases heq
  exact ⟨ps, rfl, hread⟩

/-- One step of the reader: the closing quote, or one part of the grammar and then the others. -/
theorem readParts_cases (h : readParts start t = .ok (parts, rest)) :
    (t = ('"' : CodePoint) :: rest ∧ parts = []) ∨
      ∃ s tail p ps, t = s ++ tail ∧ SpellsPart s p ∧ parts = p :: ps ∧
        readParts start tail = .ok (ps, rest) := by
  unfold readParts at h
  split at h
  · cases h
  · rename_i c tail
    split at h
    · rename_i hc
      cases h
      exact .inl ⟨by rw [hc], rfl⟩
    · rename_i hquote
      split at h
      · rename_i hc
        subst hc
        split at h
        · cases h
        · rename_i e after
          split at h
          · rename_i he
            subst he
            split at h
            · split at h
              · rename_i hu
                split at h
                · cases h
                · obtain ⟨ps, hps, hread⟩ := readParts_map_eq_ok h
                  exact .inr ⟨_, _, _, ps, rfl, .unicode hu, hps, hread⟩
              · cases h
            · cases h
          · split at h
            · rename_i hs
              obtain ⟨ps, hps, hread⟩ := readParts_map_eq_ok h
              exact .inr ⟨_, _, _, ps, rfl, .short hs, hps, hread⟩
            · cases h
      · rename_i hbackslash
        split at h
        · cases h
        · rename_i hcontrol
          obtain ⟨ps, hps, hread⟩ := readParts_map_eq_ok h
          exact .inr ⟨_, _, _, ps, rfl, .plain hquote hbackslash hcontrol, hps, hread⟩

/-- What is read up to a closing quote is a text of the grammar. -/
theorem readParts_sound (h : readParts start t = .ok (parts, rest)) :
    ∃ body, t = body ++ ('"' : CodePoint) :: rest ∧ SpellsParts body parts := by
  -- each part takes at least one code point
  induction hn : t.length using Nat.strongRecOn generalizing t parts with
  | _ n ih =>
      rcases readParts_cases h with ⟨rfl, rfl⟩ | ⟨s, tail, p, ps, rfl, hs, rfl, hread⟩
      · exact ⟨[], rfl, .nil⟩
      · have hlt : tail.length < n := by
          have hpos := List.length_pos_iff.2 hs.ne_nil
          rw [List.length_append] at hn
          omega
        obtain ⟨body, rfl, hbody⟩ := ih _ hlt hread rfl
        exact ⟨s ++ body, by rw [List.append_assoc], .cons hs hbody⟩

/-- A part of the grammar is read in one step. -/
theorem readParts_append_of {s : Text} {p : StringPart} (h : SpellsPart s p) (hne : t ≠ []) :
    readParts start (s ++ t) = (readParts start t).map fun q => (p :: q.1, q.2) := by
  have hquote : ¬ ('\\' : CodePoint) = '"' := by decide
  cases h with
  | plain noQuote noBackslash noControl =>
      show readParts start (_ :: t) = _
      rw [readParts.eq_def]
      simp only [if_neg noQuote, if_neg noBackslash, if_neg noControl]
  | @short e c escape =>
      -- the letter of a unit is that of no short escape
      have he : e ≠ 'u' := by
        rintro rfl
        rw [show shortEscape? 'u' = none by decide] at escape
        cases escape
      show readParts start ('\\' :: e :: t) = _
      rw [readParts.eq_def]
      simp only [if_neg hquote, if_pos, if_neg he, escape]
  | @unicode h₁ h₂ h₃ h₄ u escape =>
      have hempty : ¬ t.isEmpty = true := by simpa using hne
      show readParts start ('\\' :: 'u' :: h₁ :: h₂ :: h₃ :: h₄ :: t) = _
      rw [readParts.eq_def]
      simp only [if_neg hquote, if_pos, escape, if_neg hempty]

/-- A text of the grammar is read up to its closing quote. -/
theorem readParts_complete (h : SpellsParts body parts) :
    readParts start (body ++ ('"' : CodePoint) :: rest) = .ok (parts, rest) := by
  induction h with
  | nil =>
      show readParts start ('"' :: rest) = _
      rw [readParts.eq_def]
      rfl
  | cons first others ih =>
      rw [List.append_assoc, readParts_append_of first (by simp), ih]
      rfl

/-- The reader takes a string up to its closing quote exactly when the grammar allows. -/
theorem readString_eq_ok_iff {s : Text} :
    readString start t = .ok (s, rest) ↔
      ∃ body, t = body ++ ('"' : CodePoint) :: rest ∧ SpellsString body s := by
  constructor
  · intro h
    obtain ⟨⟨parts, after⟩, hread, heq⟩ := Results.map_eq_ok_iff.1 h
    cases heq
    obtain ⟨body, hbody, hparts⟩ := readParts_sound hread
    exact ⟨body, hbody, parts, hparts, joins_iff.2 rfl⟩
  · rintro ⟨body, rfl, parts, hparts, hjoins⟩
    rw [readString, readParts_complete hparts, ← joins_iff.1 hjoins]
    rfl

end ShapedJson.Json
