import ShapedJson.Json.Basic
import ShapedJson.Text.Octets

/-!
# Writing JSON text

A style fixes what may vary in the text of a value: the blanks before an item
and after a colon, and whether code points beyond ASCII are escaped.  Control
characters, the quote and the backslash are always escaped.
-/

namespace ShapedJson

/-- What may vary in the text of a value. -/
structure JsonStyle where
  /-- The blanks before an item or a closing bracket at a depth. -/
  gap : Nat → Text
  /-- The text between the name of a field and its value. -/
  colon : Text
  /-- Whether every code point beyond printable ASCII is escaped. -/
  asciiOnly : Bool

namespace JsonStyle

/-- No blanks, ASCII only. -/
def compact : JsonStyle := ⟨fun _ => [], text ":", true⟩

/-- No blanks, code points beyond ASCII as they are. -/
def compactUnicode : JsonStyle := ⟨fun _ => [], text ":", false⟩

/-- One item a line, two blanks further in for each depth, ASCII only. -/
def indented : JsonStyle :=
  ⟨fun depth => '\n' :: List.replicate (2 * depth) (' ' : CodePoint), text ": ", true⟩

end JsonStyle

namespace Text

/-- An escape of a code point by one or, beyond the first plane, two units. -/
def unicodeEscape (c : CodePoint) : Text :=
  if c.val < 0x10000 then text "\\u" ++ hex 4 c.val
  else
    let n := c.val - 0x10000
    text "\\u" ++ hex 4 (0xD800 + n / 0x400) ++ text "\\u" ++ hex 4 (0xDC00 + n % 0x400)

/-- One code point inside a JSON string. -/
def jsonCodePoint (asciiOnly : Bool) (c : CodePoint) : Text :=
  if c = '"' ∨ c = '\\' then ['\\', c]
  else if c = '\n' then ['\\', 'n']
  else if c = '\r' then ['\\', 'r']
  else if c = '\t' then ['\\', 't']
  else if c.val = 0x8 then ['\\', 'b']
  else if c.val = 0xC then ['\\', 'f']
  else if c.val < 0x20 then unicodeEscape c
  else if asciiOnly ∧ 0x7F ≤ c.val then unicodeEscape c
  else [c]

/-- The text as a JSON string. -/
def jsonString (asciiOnly : Bool) (t : Text) : Text :=
  text "\"" ++ t.flatMap (jsonCodePoint asciiOnly) ++ text "\""

end Text

namespace Json

mutual

/-- The text of a value at a depth. -/
def write (style : JsonStyle) (depth : Nat) : Json → Text
  | .null => text "null"
  | .bool true => text "true"
  | .bool false => text "false"
  | .number n => Text.ofNumber .json n
  | .string s => s.jsonString style.asciiOnly
  | .array [] => text "[]"
  | .array (v :: rest) =>
    text "[" ++ style.gap (depth + 1) ++ write style (depth + 1) v ++
      writeItems style (depth + 1) rest ++ style.gap depth ++ text "]"
  | .object [] => text "\x7b\x7d"
  | .object ((k, v) :: rest) =>
    text "\x7b" ++ style.gap (depth + 1) ++ k.jsonString style.asciiOnly ++ style.colon ++
      write style (depth + 1) v ++ writeFields style (depth + 1) rest ++ style.gap depth ++
      text "\x7d"

/-- The items after the first one, each after a comma. -/
def writeItems (style : JsonStyle) (depth : Nat) : List Json → Text
  | [] => []
  | v :: rest => text "," ++ style.gap depth ++ write style depth v ++ writeItems style depth rest

/-- The fields after the first one, each after a comma. -/
def writeFields (style : JsonStyle) (depth : Nat) : List (Text × Json) → Text
  | [] => []
  | (k, v) :: rest =>
    text "," ++ style.gap depth ++ k.jsonString style.asciiOnly ++ style.colon ++
      write style depth v ++ writeFields style depth rest

end

/-- The value without blanks, in ASCII. -/
def compact (v : Json) : Text := v.write .compact 0

/-- The value with one item a line, in ASCII. -/
def indented (v : Json) : Text := v.write .indented 0

end Json

end ShapedJson
