import ShapedJson.Json.Basic
import ShapedJson.Proofs.Text.Encodable

/-!
# Properties of every part of a value

A property of the numbers, of the strings and of the names of an object is meant for every part of
a value.  The height of a value is the number of containers that are open at its deepest place.
-/

namespace ShapedJson.Json

/-- Properties of the numbers, of the strings, and of the names of each object. -/
structure Traits where
  number : Number → Prop
  string : Text → Prop
  names : List Text → Prop

/-- Whether all parts of a value have the properties. -/
inductive Every (p : Traits) : Json → Prop
  | null : Every p .null
  | bool (b : Bool) : Every p (.bool b)
  | number (n : Number) (here : p.number n) : Every p (.number n)
  | string (s : Text) (here : p.string s) : Every p (.string s)
  | array (items : List Json) (inside : ∀ v ∈ items, Every p v) : Every p (.array items)
  | object (fields : List (Text × Json)) (here : p.names (Fields.names fields))
      (inside : ∀ f ∈ fields, Every p f.2) : Every p (.object fields)

variable {p q r : Traits} {v : Json}

@[simp] theorem every_null : Every p .null := .null

@[simp] theorem every_bool (b : Bool) : Every p (.bool b) := .bool b

@[simp] theorem every_number {n : Number} : Every p (.number n) ↔ p.number n :=
  ⟨fun h => by cases h; assumption, .number n⟩

@[simp] theorem every_string {s : Text} : Every p (.string s) ↔ p.string s :=
  ⟨fun h => by cases h; assumption, .string s⟩

@[simp] theorem every_array {items : List Json} :
    Every p (.array items) ↔ ∀ v ∈ items, Every p v :=
  ⟨fun h => by cases h; assumption, .array items⟩

@[simp] theorem every_object {fields : List (Text × Json)} :
    Every p (.object fields) ↔ p.names (Fields.names fields) ∧ ∀ f ∈ fields, Every p f.2 :=
  ⟨fun h => by cases h; exact ⟨‹_›, ‹_›⟩, fun h => .object fields h.1 h.2⟩

/-- Properties that follow from two others do so in every part. -/
theorem Every.imp₂ (hp : v.Every p) (hq : v.Every q)
    (number : ∀ n, p.number n → q.number n → r.number n)
    (string : ∀ s, p.string s → q.string s → r.string s)
    (names : ∀ ns, p.names ns → q.names ns → r.names ns) : v.Every r := by
  induction v with
  | null => exact .null
  | bool b => exact .bool b
  | number n => exact .number n (number n (every_number.1 hp) (every_number.1 hq))
  | string s => exact .string s (string s (every_string.1 hp) (every_string.1 hq))
  | array items ih =>
      exact .array items fun v hv => ih v hv (every_array.1 hp v hv) (every_array.1 hq v hv)
  | object fields ih =>
      rw [every_object] at hp hq
      exact .object fields (names _ hp.1 hq.1) fun f hf => ih f hf (hp.2 f hf) (hq.2 f hf)

/-- Whether no string and no name of a value holds a surrogate. -/
def Encodable (v : Json) : Prop :=
  v.Every ⟨fun _ => True, Text.Encodable, fun names => ∀ name ∈ names, name.Encodable⟩

@[simp] theorem encodable_null : Encodable .null := .null

theorem encodable_string {s : Text} : (Json.string s).Encodable ↔ s.Encodable := every_string

theorem encodable_array {items : List Json} :
    (Json.array items).Encodable ↔ ∀ v ∈ items, v.Encodable := every_array

theorem encodable_object {fields : List (Text × Json)} :
    (Json.object fields).Encodable ↔ ∀ f ∈ fields, f.1.Encodable ∧ f.2.Encodable := by
  have hnames : (∀ name ∈ Fields.names fields, name.Encodable) ↔ ∀ f ∈ fields, f.1.Encodable :=
    List.forall_mem_map
  exact every_object.trans ((and_congr_left' hnames).trans forall₂_and.symm)

/-- Whether all numbers of a value are whole. -/
def FloatFree (v : Json) : Prop :=
  v.Every ⟨fun n => ∃ k, n = .whole k, fun _ => True, fun _ => True⟩

/-- Whether no object of a value has two fields of one name. -/
def Distinct (v : Json) : Prop := v.Every ⟨fun _ => True, fun _ => True, List.Nodup⟩

theorem isFiniteItems_eq_true_iff {items : List Json} :
    isFiniteItems items = true ↔ ∀ v ∈ items, v.isFinite = true := by
  induction items with
  | nil => simp [isFiniteItems]
  | cons v rest ih => simp [isFiniteItems, ih]

theorem isFiniteFields_eq_true_iff {fields : List (Text × Json)} :
    isFiniteFields fields = true ↔ ∀ f ∈ fields, f.2.isFinite = true := by
  induction fields with
  | nil => simp [isFiniteFields]
  | cons f rest ih =>
      obtain ⟨k, v⟩ := f
      simp [isFiniteFields, ih]

mutual

/-- The number of containers that are open at the deepest place of a value. -/
def height : Json → Nat
  | .array items => heightOfItems items + 1
  | .object fields => heightOfFields fields + 1
  | _ => 0

/-- The greatest height of an item. -/
def heightOfItems : List Json → Nat
  | [] => 0
  | v :: rest => max (height v) (heightOfItems rest)

/-- The greatest height of a value of a field. -/
def heightOfFields : List (Text × Json) → Nat
  | [] => 0
  | (_, v) :: rest => max (height v) (heightOfFields rest)

end

theorem heightOfItems_le_iff {items : List Json} {n : Nat} :
    heightOfItems items ≤ n ↔ ∀ v ∈ items, v.height ≤ n := by
  induction items with
  | nil => simp [heightOfItems]
  | cons v rest ih => rw [heightOfItems, Nat.max_le, ih, List.forall_mem_cons]

theorem heightOfFields_le_iff {fields : List (Text × Json)} {n : Nat} :
    heightOfFields fields ≤ n ↔ ∀ f ∈ fields, f.2.height ≤ n := by
  induction fields with
  | nil => simp [heightOfFields]
  | cons f rest ih =>
      obtain ⟨k, v⟩ := f
      rw [heightOfFields, Nat.max_le, ih, List.forall_mem_cons]

end ShapedJson.Json
