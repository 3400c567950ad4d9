import ShapedJson.Shape.Violation
import ShapedJson.Json.Basic
import ShapedJson.Gathered

/-!
# Checking a value against a shape

A check gives the value with only the declared fields, in the order of the
shape, or else every violation in the order of the shape.  Leaves and arrays may
be null and objects may not; nothing is converted.  Validators check by way of a
schema, which comes to the same.
-/

namespace ShapedJson

/-- A result as it looks from the value around. -/
def Violation.shift {α : Type} (step : Step) (r : Gathered Violation α) : Gathered Violation α :=
  r.mapError fun vs => vs.map (under step)

namespace Shape

/-- Check a leaf. -/
def checkLeaf : Leaf → Json → Gathered Violation Json
  | _, .null => .ok .null
  | .string, .string s => .ok (.string s)
  | .string, _ => .error [⟨[], .notString⟩]
  | .number, .number (.whole n) => .ok (.number (.whole n))
  | .number, .number (.real x) =>
    if x.isFinite then .ok (.number (.real x))
    else .error [⟨[], .notInteger⟩, ⟨[], .notFinite⟩]
  | .number, _ => .error [⟨[], .notInteger⟩, ⟨[], .notNumber⟩]
  | .boolean, .bool b => .ok (.bool b)
  | .boolean, _ => .error [⟨[], .notBoolean⟩]

/-- Check each item, the first of which has the given index. -/
def checkEach {α : Type} (checkItem : Json → Gathered Violation α) :
    Nat → List Json → Gathered Violation (List α)
  | _, [] => .ok []
  | index, v :: rest =>
    Gathered.apply ((Violation.shift (.item index) (checkItem v)).map List.cons)
      (checkEach checkItem (index + 1) rest)

mutual

/-- Check a value. -/
def check : Shape → Json → Gathered Violation Json
  | .leaf kind => checkLeaf kind
  | .array item => fun v =>
    match v with
    | .null => .ok .null
    | .array items => (checkEach (check item) 0 items).map .array
    | _ => .error [⟨[], .notList⟩]
  | .object fields => fun v =>
    match v with
    | .object given => (checkFields fields given).map .object
    | _ => .error [⟨[], .notObject⟩]

/-- Check the declared fields, whatever else is given. -/
def checkFields :
    List (Text × Shape) → List (Text × Json) → Gathered Violation (List (Text × Json))
  | [], _ => .ok []
  | (k, s) :: rest, given =>
    let first : Gathered Violation Json :=
      match given.lookup k with
      | none => .error [⟨[.field k], .missingField⟩]
      | some v => Violation.shift (.field k) (check s v)
    Gathered.apply (first.map fun v => List.cons (k, v)) (checkFields rest given)

end

end Shape

end ShapedJson
