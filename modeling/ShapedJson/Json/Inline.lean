import ShapedJson.Json.Basic
import ShapedJson.Text.Quoted

/-!
# Values inside messages

The one-line form in which a message shows a value: quoted text, capital names
for the three constants, and a blank after each comma and colon.
-/

namespace ShapedJson.Json

mutual

/-- The value as messages show it. -/
def inline : Json → Text
  | .null => text "None"
  | .bool true => text "True"
  | .bool false => text "False"
  | .number n => Text.ofNumber .message n
  | .string s => s.quoted
  | .array [] => text "[]"
  | .array (v :: rest) => text "[" ++ inline v ++ inlineItems rest ++ text "]"
  | .object [] => text "\x7b\x7d"
  | .object ((k, v) :: rest) =>
    text "\x7b" ++ k.quoted ++ text ": " ++ inline v ++ inlineFields rest ++ text "\x7d"

/-- The items after the first one. -/
def inlineItems : List Json → Text
  | [] => []
  | v :: rest => text ", " ++ inline v ++ inlineItems rest

/-- The fields after the first one. -/
def inlineFields : List (Text × Json) → Text
  | [] => []
  | (k, v) :: rest => text ", " ++ k.quoted ++ text ": " ++ inline v ++ inlineFields rest

end

end ShapedJson.Json
