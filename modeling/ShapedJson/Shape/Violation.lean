import ShapedJson.Shape.Basic

/-!
# Violations

A violation is a place in a value and what is wrong there.  A bad number is told
twice, once as no integer and once as no number, each with a step of its own at
the end of the place.
-/

namespace ShapedJson

/-- A step from a value to a part of it. -/
inductive Step where
  | field (key : Text)
  | item (index : Nat)
  deriving DecidableEq, Repr

/-- What can be wrong with a part of a value. -/
inductive Mismatch where
  | missingField
  | notString
  | notInteger
  | notNumber
  | notFinite
  | notBoolean
  | notList
  | notObject
  deriving DecidableEq, Repr

/-- A place, as the steps from the root, and what is wrong there. -/
structure Violation where
  place : List Step
  mismatch : Mismatch
  deriving DecidableEq, Repr

namespace Text

/-- The maximal runs of letters and digits of ASCII, after those already read. -/
def wordsFrom (current : Text) : Text → List Text
  | [] => if current.isEmpty then [] else [current]
  | c :: rest =>
    if c.isAlphanumeric then wordsFrom (current ++ [c]) rest
    else if current.isEmpty then wordsFrom [] rest
    else current :: wordsFrom [] rest

/-- The maximal runs of letters and digits of ASCII. -/
def words (t : Text) : List Text := wordsFrom [] t

/-- The text with a capital at its start. -/
def capitalized : Text → Text
  | [] => []
  | c :: rest => c.upper :: rest

/-- The keys on the way to a node, each after a point, after the root's sign. -/
def ofPath (keys : List Text) : Text := text "$" ++ keys.flatMap fun k => text "." ++ k

end Text

namespace Step

/-- The step in the text of a place. -/
def toText : Step → Text
  | .field key => key
  | .item index => Text.ofNat index

/-- The key of the shape that the step leads to. -/
def shapeKey : Step → Text
  | .field key => key
  | .item _ => text "items"

end Step

namespace Mismatch

/-- The last step of the place, for the two ways to be no number. -/
def branch : Mismatch → List Text
  | .notInteger => [text "int"]
  | .notNumber | .notFinite => [text "float"]
  | _ => []

end Mismatch

namespace Violation

/-- The same violation, seen from the value around. -/
def under (step : Step) (v : Violation) : Violation := ⟨step :: v.place, v.mismatch⟩

/-- The name of the object shape at a place: the words of its keys, run together
with capitals. -/
def objectName (place : List Step) : Text :=
  text "Shape" ++
    ((Text.ofPath (place.map Step.shapeKey)).words.map Text.capitalized).flatten

/-- What was expected at the place. -/
def expectation (v : Violation) : Text :=
  match v.mismatch with
  | .missingField => text "Field required"
  | .notString => text "Input should be a valid string"
  | .notInteger => text "Input should be a valid integer"
  | .notNumber => text "Input should be a valid number"
  | .notFinite => text "Input should be a finite number"
  | .notBoolean => text "Input should be a valid boolean"
  | .notList => text "Input should be a valid list"
  | .notObject => text "Input should be a valid dictionary or instance of " ++ objectName v.place

/-- The violation in words. -/
def message (v : Violation) : Text :=
  Text.ofPath (v.place.map Step.toText ++ v.mismatch.branch) ++ text ": " ++ v.expectation

end Violation

end ShapedJson
