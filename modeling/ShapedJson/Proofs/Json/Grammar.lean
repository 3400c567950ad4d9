import ShapedJson.Proofs.Fields
import ShapedJson.Proofs.Json.Numerals
import ShapedJson.Proofs.Json.Strings

/-!
# The grammar of JSON

Which texts denote which values.  Blanks may stand around every item, name and value.  The rules
of a reader bound the digits of whole numbers and the containers around a value, and say whether
the constants for NaN and the infinities are words of the grammar.
-/

namespace ShapedJson

/-- Nothing but blanks of the grammar. -/
def Text.IsBlank (t : Text) : Prop := ∀ c ∈ t, isJsonBlank c = true

namespace Json

variable {rules : ReadRules} {nesting : Nat} {s t rest : Text} {v : Json}

theorem mem_literals_iff : (t, v) ∈ literals ↔
    t = text "null" ∧ v = .null ∨ t = text "true" ∧ v = .bool true ∨
      t = text "false" ∧ v = .bool false := by
  simp only [literals, List.mem_cons, Prod.mk.injEq, List.not_mem_nil, or_false]

theorem mem_constants_iff : (t, v) ∈ constants ↔
    t = text "NaN" ∧ v = .number (.real .nan) ∨
      t = text "Infinity" ∧ v = .number (.real (.infinity false)) ∨
      t = text "-Infinity" ∧ v = .number (.real (.infinity true)) := by
  simp only [constants, List.mem_cons, Prod.mk.injEq, List.not_mem_nil, or_false]

/-- The text denotes a value that is no container and no string. -/
inductive SpellsScalar (rules : ReadRules) : Text → Json → Prop
  | literal {t : Text} {v : Json} (word : (t, v) ∈ literals) : SpellsScalar rules t v
  | constant {t : Text} {v : Json} (allowed : rules.constants = true) (word : (t, v) ∈ constants) :
      SpellsScalar rules t v
  | number {t : Text} {n : Numeral} (spells : n.Spells t)
      (bound : n.isWhole = true → n.whole.length ≤ rules.digitLimit) :
      SpellsScalar rules t (.number n.value)

/-- The text is the name of a field and the colon after it, up to the value. -/
inductive SpellsName : Text → Text → Prop
  | quoted {body key before after : Text} (spells : SpellsString body key)
      (blankBefore : before.IsBlank) (blankAfter : after.IsBlank) :
      SpellsName (text "\"" ++ (body ++ (text "\"" ++ (before ++ (text ":" ++ after))))) key

mutual

/-- The text denotes the value, with so many containers that may still be opened. -/
inductive SpellsValue (rules : ReadRules) : Nat → Text → Json → Prop
  | scalar {nesting : Nat} {t : Text} {v : Json} (word : SpellsScalar rules t v) :
      SpellsValue rules nesting t v
  | string {nesting : Nat} {body s : Text} (spells : SpellsString body s) :
      SpellsValue rules nesting (text "\"" ++ (body ++ text "\"")) (.string s)
  | emptyArray {nesting : Nat} {inside : Text} (blank : inside.IsBlank) :
      SpellsValue rules (nesting + 1) (text "[" ++ (inside ++ text "]")) (.array [])
  | array {nesting : Nat} {before t : Text} {items : List Json} (blank : before.IsBlank)
      (inside : SpellsItems rules nesting t items) :
      SpellsValue rules (nesting + 1) (text "[" ++ (before ++ (t ++ text "]"))) (.array items)
  | emptyObject {nesting : Nat} {inside : Text} (blank : inside.IsBlank) :
      SpellsValue rules (nesting + 1) (text "\x7b" ++ (inside ++ text "\x7d")) (.object [])
  | object {nesting : Nat} {before t : Text} {given fields : List (Text × Json)}
      (blank : before.IsBlank) (inside : SpellsFields rules nesting t given)
      (merges : Fields.Merges given fields) :
      SpellsValue rules (nesting + 1) (text "\x7b" ++ (before ++ (t ++ text "\x7d")))
        (.object fields)

/-- The text denotes the items of an array, commas between them. -/
inductive SpellsItems (rules : ReadRules) : Nat → Text → List Json → Prop
  | last {nesting : Nat} {t after : Text} {v : Json} (value : SpellsValue rules nesting t v)
      (blank : after.IsBlank) : SpellsItems rules nesting (t ++ after) [v]
  | more {nesting : Nat} {t after before others : Text} {v : Json} {vs : List Json}
      (value : SpellsValue rules nesting t v) (blankAfter : after.IsBlank)
      (blankBefore : before.IsBlank) (inside : SpellsItems rules nesting others vs) :
      SpellsItems rules nesting (t ++ (after ++ (text "," ++ (before ++ others)))) (v :: vs)

/-- The text denotes the fields of an object, commas between them. -/
inductive SpellsFields (rules : ReadRules) : Nat → Text → List (Text × Json) → Prop
  | last {nesting : Nat} {name key t after : Text} {v : Json} (spells : SpellsName name key)
      (value : SpellsValue rules nesting t v) (blank : after.IsBlank) :
      SpellsFields rules nesting (name ++ (t ++ after)) [(key, v)]
  | more {nesting : Nat} {name key t after before others : Text} {v : Json}
      {fs : List (Text × Json)} (spells : SpellsName name key)
      (value : SpellsValue rules nesting t v) (blankAfter : after.IsBlank)
      (blankBefore : before.IsBlank) (inside : SpellsFields rules nesting others fs) :
      SpellsFields rules nesting (name ++ (t ++ (after ++ (text "," ++ (before ++ others)))))
        ((key, v) :: fs)

end

/-- The text denotes the value, blanks around it allowed. -/
def SpellsDocument (rules : ReadRules) (t : Text) (v : Json) : Prop :=
  ∃ before s after, before.IsBlank ∧ after.IsBlank ∧ t = before ++ (s ++ after) ∧
    SpellsValue rules rules.nestingLimit s v

theorem SpellsValue.document (h : SpellsValue rules rules.nestingLimit t v) :
    SpellsDocument rules t v :=
  ⟨[], t, [], nofun, nofun, by rw [List.nil_append, List.append_nil], h⟩

/-- An array or an object. -/
def IsContainer : Json → Prop
  | .array _ | .object _ => True
  | _ => False

theorem SpellsScalar.not_isContainer (h : SpellsScalar rules t v) : ¬ v.IsContainer := by
  cases h with
  | literal word =>
      rcases mem_literals_iff.1 word with ⟨-, rfl⟩ | ⟨-, rfl⟩ | ⟨-, rfl⟩ <;> exact id
  | constant allowed word =>
      rcases mem_constants_iff.1 word with ⟨-, rfl⟩ | ⟨-, rfl⟩ | ⟨-, rfl⟩ <;> exact id
  | number spells bound => exact id

/-! ## How values start -/

/-- A code point of ASCII that is no blank of the grammar and closes no container. -/
def Opens (c : CodePoint) : Prop :=
  Text.isJsonBlank c = false ∧ c ≠ ']' ∧ c ≠ '\x7d' ∧ c.val < 0x80

instance (c : CodePoint) : Decidable (Opens c) := inferInstanceAs (Decidable (_ ∧ _))

/-- A code point that starts a word or a numeral. -/
def OpensScalar (c : CodePoint) : Prop := Opens c ∧ c ≠ '"' ∧ c ≠ '\x7b' ∧ c ≠ '['

instance (c : CodePoint) : Decidable (OpensScalar c) := inferInstanceAs (Decidable (_ ∧ _))

theorem opensScalar_of_isDigit {c : CodePoint} (h : c.isDigit = true) : OpensScalar c := by
  have hne : ∀ d : CodePoint, d.isDigit = false → c ≠ d := fun _ hd => CodePoint.ne_of_isDigit h hd
  refine ⟨⟨?_, hne _ (by decide), hne _ (by decide), ?_⟩, hne _ (by decide), hne _ (by decide),
    hne _ (by decide)⟩
  · simp [Text.isJsonBlank, hne ' ' (by decide), hne '\t' (by decide), hne '\n' (by decide),
      hne '\r' (by decide)]
  · simp only [CodePoint.isDigit, Bool.and_eq_true, decide_eq_true_eq] at h
    omega

/-- A digit, a minus sign, or the first letter of a word. -/
def StartsScalar (c : CodePoint) : Prop := c.isDigit = true ∨ c ∈ text "-tfnNI"

theorem StartsScalar.opensScalar {c : CodePoint} (h : StartsScalar c) : OpensScalar c := by
  rcases h with h | h
  · exact opensScalar_of_isDigit h
  · have hall : (text "-tfnNI").all (fun c => decide (OpensScalar c)) = true := by decide
    exact of_decide_eq_true (List.all_eq_true.1 hall c h)

theorem SpellsScalar.exists_eq_cons (h : SpellsScalar rules t v) :
    ∃ c tail, t = c :: tail ∧ StartsScalar c := by
  cases h with
  | literal word =>
      rcases mem_literals_iff.1 word with ⟨rfl, rfl⟩ | ⟨rfl, rfl⟩ | ⟨rfl, rfl⟩ <;>
        exact ⟨_, _, rfl, .inr (by decide)⟩
  | constant allowed word =>
      rcases mem_constants_iff.1 word with ⟨rfl, rfl⟩ | ⟨rfl, rfl⟩ | ⟨rfl, rfl⟩ <;>
        exact ⟨_, _, rfl, .inr (by decide)⟩
  | number spells bound =>
      obtain ⟨d, tail, hd, rfl | rfl⟩ := spells.exists_eq_cons
      · exact ⟨d, tail, rfl, .inl hd⟩
      · exact ⟨'-', d :: tail, rfl, .inr (by decide)⟩

theorem SpellsValue.exists_eq_cons (h : SpellsValue rules nesting t v) :
    ∃ c tail, t = c :: tail ∧ Opens c := by
  cases h with
  | scalar word =>
      obtain ⟨c, tail, rfl, hc⟩ := word.exists_eq_cons
      exact ⟨c, tail, rfl, hc.opensScalar.1⟩
  | string | emptyArray | array | emptyObject | object => exact ⟨_, _, rfl, by decide⟩

theorem SpellsItems.exists_eq_cons {items : List Json} (h : SpellsItems rules nesting t items) :
    ∃ c tail, t = c :: tail ∧ Opens c := by
  cases h with
  | last value | more value =>
      obtain ⟨c, tail, rfl, hc⟩ := value.exists_eq_cons
      exact ⟨c, _, rfl, hc⟩

theorem SpellsName.exists_eq_cons {key : Text} (h : SpellsName t key) :
    ∃ tail, t = ('"' : CodePoint) :: tail := by
  cases h
  exact ⟨_, rfl⟩

theorem SpellsFields.exists_eq_cons {fields : List (Text × Json)}
    (h : SpellsFields rules nesting t fields) : ∃ tail, t = ('"' : CodePoint) :: tail := by
  cases h with
  | last spells | more spells =>
      obtain ⟨tail, rfl⟩ := spells.exists_eq_cons
      exact ⟨_, rfl⟩

end Json

end ShapedJson
