import ShapedJson.Shape.Basic
import ShapedJson.Json.Basic

/-!
# Descriptions of shapes

A shape is described by a JSON value: a mapping may name its kind under the key
of the type, and any other value is an example of its kind.  Reading goes
through the description in order, fields as they are given, and refuses it at
the first node that lies too deep, has no kind of the five, or is an array
without its items.
-/

namespace ShapedJson

/-- The key under which a mapping names its kind. -/
def typeKey : Text := text "type"

/-- The key under which an array describes its items. -/
def itemsKey : Text := text "items"

/-- The kinds that a description can name. -/
inductive Kind where
  | leaf (kind : Leaf)
  | array
  | object
  deriving DecidableEq, Repr

namespace Kind

/-- The name of a kind. -/
def name : Kind → Text
  | .leaf kind => kind.name
  | .array => text "array"
  | .object => text "object"

/-- The kind that a value names. -/
def ofJson? : Json → Option Kind
  | .string s =>
    if s = name .array then some .array
    else if s = name .object then some .object
    else (Leaf.ofName? s).map .leaf
  | _ => none

end Kind

/-- The kind that a description names, or else the one it is an example of. -/
def Json.describedKind : Json → Json
  | .object fields => (fields.lookup typeKey).getD (.string (Kind.name .object))
  | .array _ => .string (Kind.name .array)
  | .string _ => .string (Leaf.name .string)
  | .bool _ => .string (Leaf.name .boolean)
  | .number _ => .string (Leaf.name .number)
  | .null => .string (text "null")

/-- What makes a node of a description unusable. -/
inductive Defect where
  | tooDeep
  | unsupportedKind (kind : Json)
  | missingItems
  deriving Repr

/-- A defect and the keys that lead to its node. -/
structure DescriptionError where
  path : List Text
  defect : Defect
  deriving Repr

namespace DescriptionError

/-- A defect of the node at hand. -/
def here (defect : Defect) : DescriptionError := ⟨[], defect⟩

/-- The same defect, seen from the node above. -/
def under (key : Text) (e : DescriptionError) : DescriptionError := ⟨key :: e.path, e.defect⟩

end DescriptionError

namespace Shape

mutual

/-- The shape that a value describes, when each of its nodes is at most the
given number of steps away. -/
def describe (room : Int) (raw : Json) : Except DescriptionError Shape :=
  if room < 0 then .error (.here .tooDeep)
  else
    match raw with
    | .null => .error (.here (.unsupportedKind (Json.describedKind .null)))
    | .bool _ => .ok (.leaf .boolean)
    | .number _ => .ok (.leaf .number)
    | .string _ => .ok (.leaf .string)
    | .array _ => .error (.here .missingItems)
    | .object fields =>
      match Kind.ofJson? (Json.describedKind (.object fields)) with
      | none => .error (.here (.unsupportedKind (Json.describedKind (.object fields))))
      | some (.leaf kind) => .ok (.leaf kind)
      | some .array => (describeItems (room - 1) fields).map .array
      | some .object => (describeFields (room - 1) fields).map .object

/-- The shape of the items of an array, among the fields that describe it. -/
def describeItems (room : Int) : List (Text × Json) → Except DescriptionError Shape
  | [] => .error (.here .missingItems)
  | (k, v) :: rest =>
    if k = itemsKey then (describe room v).mapError (.under k) else describeItems room rest

/-- The shapes of the fields of an object; the key of the type is none of them. -/
def describeFields (room : Int) :
    List (Text × Json) → Except DescriptionError (List (Text × Shape))
  | [] => .ok []
  | (k, v) :: rest =>
    if k = typeKey then describeFields room rest
    else do
      let s ← (describe room v).mapError (.under k)
      let others ← describeFields room rest
      .ok ((k, s) :: others)

end

end Shape

end ShapedJson
