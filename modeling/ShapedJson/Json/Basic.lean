import ShapedJson.Fields
import ShapedJson.Number.Basic

/-!
# JSON values

The values of JSON, with numbers that keep the difference between whole numbers
and fractions, and objects that keep the order of their fields.  Reading never
gives an object two fields of one name; where a value has them all the same,
the first one counts.  Whether two values are the same can be computed.
-/

namespace ShapedJson

/-- A JSON value. -/
inductive Json where
  | null
  | bool (b : Bool)
  | number (n : Number)
  | string (s : Text)
  | array (items : List Json)
  | object (fields : List (Text × Json))
  deriving Repr, Inhabited

namespace Json

/-- Induction over values, through the items of arrays and the fields of objects. -/
@[elab_as_elim, induction_eliminator]
theorem induct {motive : Json → Prop} (null : motive .null) (bool : ∀ b, motive (.bool b))
    (number : ∀ n, motive (.number n)) (string : ∀ s, motive (.string s))
    (array : ∀ items, (∀ v ∈ items, motive v) → motive (.array items))
    (object : ∀ fields : List (Text × Json), (∀ f ∈ fields, motive f.2) → motive (.object fields)) :
    ∀ v : Json, motive v
  | .null => null
  | .bool b => bool b
  | .number n => number n
  | .string s => string s
  | .array items => array items fun v _ => induct null bool number string array object v
  | .object fields => object fields fun f _ => induct null bool number string array object f.2
decreasing_by
  · have := List.sizeOf_lt_of_mem ‹_›
    simp only [Json.array.sizeOf_spec]
    omega
  · simpa only [Json.object.sizeOf_spec] using Fields.sizeOf_lt_of_mem ‹_›

mutual

/-- Whether two values are the same. -/
def decEq : (v w : Json) → Decidable (v = w)
  | .null, w =>
    match w with
    | .null => isTrue rfl
    | .bool _ | .number _ | .string _ | .array _ | .object _ => isFalse (by simp)
  | .bool a, w =>
    match w with
    | .bool b => decidable_of_iff (a = b) (by simp)
    | .null | .number _ | .string _ | .array _ | .object _ => isFalse (by simp)
  | .number m, w =>
    match w with
    | .number n => decidable_of_iff (m = n) (by simp)
    | .null | .bool _ | .string _ | .array _ | .object _ => isFalse (by simp)
  | .string s, w =>
    match w with
    | .string t => decidable_of_iff (s = t) (by simp)
    | .null | .bool _ | .number _ | .array _ | .object _ => isFalse (by simp)
  | .array vs, w =>
    match w with
    | .array ws =>
      match decEqItems vs ws with
      | isTrue h => isTrue (congrArg _ h)
      | isFalse h => isFalse (by simp [h])
    | .null | .bool _ | .number _ | .string _ | .object _ => isFalse (by simp)
  | .object fs, w =>
    match w with
    | .object gs =>
      match decEqFields fs gs with
      | isTrue h => isTrue (congrArg _ h)
      | isFalse h => isFalse (by simp [h])
    | .null | .bool _ | .number _ | .string _ | .array _ => isFalse (by simp)

/-- Whether two lists of items are the same. -/
def decEqItems : (vs ws : List Json) → Decidable (vs = ws)
  | [], [] => isTrue rfl
  | v :: vs, w :: ws =>
    match decEq v w, decEqItems vs ws with
    | isTrue h, isTrue hs => isTrue (by rw [h, hs])
    | isFalse h, _ => isFalse (by simp [h])
    | _, isFalse hs => isFalse (by simp [hs])
  | [], _ :: _ | _ :: _, [] => isFalse (by simp)

/-- Whether two lists of fields are the same. -/
def decEqFields : (fs gs : List (Text × Json)) → Decidable (fs = gs)
  | [], [] => isTrue rfl
  | (k, v) :: fs, (l, w) :: gs =>
    if hk : k = l then
      match decEq v w, decEqFields fs gs with
      | isTrue h, isTrue hs => isTrue (by rw [hk, h, hs])
      | isFalse h, _ => isFalse (by simp [h])
      | _, isFalse hs => isFalse (by simp [hs])
    else isFalse (by simp [hk])
  | [], _ :: _ | _ :: _, [] => isFalse (by simp)

end

instance : DecidableEq Json := decEq

/-- A whole number as a value. -/
def int (n : Int) : Json := .number (.whole n)

/-- Whether a number is neither NaN nor an infinity. -/
def numberIsFinite : Number → Bool
  | .whole _ => true
  | .real x => x.isFinite

mutual

/-- Whether every number in the value is finite. -/
def isFinite : Json → Bool
  | .number n => numberIsFinite n
  | .array items => isFiniteItems items
  | .object fields => isFiniteFields fields
  | _ => true

/-- Whether every number in the items is finite. -/
def isFiniteItems : List Json → Bool
  | [] => true
  | v :: rest => isFinite v && isFiniteItems rest

/-- Whether every number in the fields is finite. -/
def isFiniteFields : List (Text × Json) → Bool
  | [] => true
  | (_, v) :: rest => isFinite v && isFiniteFields rest

end

mutual

/-- The greatest number of containers around a part of the value. -/
def depth : Json → Nat
  | .array items => depthOfItems items
  | .object fields => depthOfFields fields
  | _ => 0

/-- One more than the depth of the deepest item, or zero without items. -/
def depthOfItems : List Json → Nat
  | [] => 0
  | v :: rest => max (depth v + 1) (depthOfItems rest)

/-- One more than the depth of the deepest field, or zero without fields. -/
def depthOfFields : List (Text × Json) → Nat
  | [] => 0
  | (_, v) :: rest => max (depth v + 1) (depthOfFields rest)

end

end Json

end ShapedJson
