import ShapedJson.Text.Quoted
import ShapedJson.Fields

/-!
# Shapes

A shape says what a JSON value has to look like: a leaf of one of three kinds,
an array whose items share one shape, or an object with named fields.  The order
of the fields decides how results are ordered and nothing else, so two shapes
are alike when they differ in that order only.
-/

namespace ShapedJson

/-- The kinds of leaf. -/
inductive Leaf where
  | string
  | number
  | boolean
  deriving DecidableEq, Repr

namespace Leaf

/-- The name of a kind of leaf. -/
def name : Leaf → Text
  | .string => text "string"
  | .number => text "number"
  | .boolean => text "boolean"

/-- The kind of leaf of a name. -/
def ofName? (t : Text) : Option Leaf :=
  if t = name .string then some .string
  else if t = name .number then some .number
  else if t = name .boolean then some .boolean
  else none

end Leaf

/-- What a value has to look like. -/
inductive Shape where
  | leaf (kind : Leaf)
  | array (item : Shape)
  | object (fields : List (Text × Shape))
  deriving Repr, Inhabited

namespace Shape

/-- Induction over shapes, through the fields of objects. -/
@[elab_as_elim, induction_eliminator]
theorem induct {motive : Shape → Prop} (leaf : ∀ kind, motive (.leaf kind))
    (array : ∀ item, motive item → motive (.array item))
    (object : ∀ fields : List (Text × Shape), (∀ f ∈ fields, motive f.2) → motive (.object fields)) :
    ∀ s : Shape, motive s
  | .leaf kind => leaf kind
  | .array item => array item (induct leaf array object item)
  | .object fields => object fields fun f _ => induct leaf array object f.2
decreasing_by
  · simp only [Shape.array.sizeOf_spec]
    omega
  · simpa only [Shape.object.sizeOf_spec] using Fields.sizeOf_lt_of_mem ‹_›

mutual

/-- Whether two shapes are the same up to the order of fields. -/
def alike : Shape → Shape → Bool
  | .leaf a, .leaf b => a == b
  | .array a, .array b => alike a b
  | .object fs, .object gs => fs.length == gs.length && alikeFields fs gs
  | _, _ => false

/-- Whether each of the fields has one of its name that is alike among others. -/
def alikeFields : List (Text × Shape) → List (Text × Shape) → Bool
  | [], _ => true
  | (k, s) :: rest, gs =>
    (match gs.lookup k with
      | some g => alike s g
      | none => false) && alikeFields rest gs

end

mutual

/-- The greatest number of arrays and objects around a part of the shape. -/
def depth : Shape → Nat
  | .leaf _ => 0
  | .array item => depth item + 1
  | .object fields => depthOfFields fields

/-- One more than the depth of the deepest field, or zero without fields. -/
def depthOfFields : List (Text × Shape) → Nat
  | [] => 0
  | (_, s) :: rest => max (depth s + 1) (depthOfFields rest)

end

mutual

/-- The shape as messages show it. -/
def inline : Shape → Text
  | .leaf kind => text "Primitive(kind=" ++ kind.name.quoted ++ text ")"
  | .array item => text "ArrayShape(items=" ++ inline item ++ text ")"
  | .object [] => text "ObjectShape(fields=mappingproxy(\x7b\x7d))"
  | .object ((k, s) :: rest) =>
    text "ObjectShape(fields=mappingproxy(\x7b" ++ k.quoted ++ text ": " ++ inline s ++
      inlineFields rest ++ text "\x7d))"

/-- The fields after the first one. -/
def inlineFields : List (Text × Shape) → Text
  | [] => []
  | (k, s) :: rest => text ", " ++ k.quoted ++ text ": " ++ inline s ++ inlineFields rest

end

end Shape

end ShapedJson
